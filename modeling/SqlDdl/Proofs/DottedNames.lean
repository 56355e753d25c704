import Mathlib.Data.List.Basic
import SqlDdl.Statement.ObjectName

/-!
# Names with dots

A text is cut at its dots and the pieces are joined by dots, so that what is shown is the text
again. The way back is not always open: a part that was quoted may hold a dot, and is cut at it,
and a name without parts is shown as the empty text, which is a name of one empty part. Names of
at least one part, none of which holds a dot, are exactly those that come back.
-/

namespace SqlDdl.ObjectName

/-- Cutting at dots is the library's way to split a list at an element. -/
theorem splitDots_eq_splitOn (cs : List Char) : splitDots cs = cs.splitOn '.' := by
  induction cs with
  | nil => rfl
  | cons c cs ih =>
    have hcons : splitDots (c :: cs) = pushFront c (splitDots cs) := rfl
    rw [hcons, ih, List.splitOn_cons_eq_if_modifyHead]
    by_cases hc : c = '.'
    · simp [pushFront, hc]
    · cases hpieces : cs.splitOn '.' with
      | nil => exact absurd hpieces (List.splitOn_ne_nil _ _)
      | cons piece rest => simp [pushFront, hc]

/-- The pieces of a list between its dots hold no dot. -/
theorem noDot_of_mem_splitOn {cs piece : List Char} (h : piece ∈ cs.splitOn '.') :
    '.' ∉ piece := by
  induction cs generalizing piece with
  | nil =>
    have hempty : piece = [] := by simpa using h
    simp [hempty]
  | cons c cs ih =>
    rw [List.splitOn_cons_eq_if_modifyHead] at h
    by_cases hc : c = '.'
    · simp only [hc, beq_self_eq_true, if_true] at h
      rcases List.mem_cons.mp h with hempty | hbehind
      · simp [hempty]
      · exact ih hbehind
    · cases hpieces : cs.splitOn '.' with
      | nil => exact absurd hpieces (List.splitOn_ne_nil _ _)
      | cons first rest =>
        rw [hpieces] at h ih
        simp only [beq_iff_eq, hc, if_false, List.modifyHead_cons] at h
        rcases List.mem_cons.mp h with hfirst | hbehind
        · have hno : '.' ∉ first := ih List.mem_cons_self
          simp [hfirst, hno, Ne.symm hc]
        · exact ih (List.mem_cons_of_mem _ hbehind)

/-- The parts of a text's name are the pieces of the text. -/
theorem parts_ofText (text : String) :
    (ofText text).parts = (text.toList.splitOn '.').map String.ofList := by
  rw [ofText, splitDots_eq_splitOn]

/-- A text's name has a part. -/
theorem parts_ofText_ne_nil (text : String) : (ofText text).parts ≠ [] := by
  rw [parts_ofText, Ne, List.map_eq_nil_iff]
  exact List.splitOn_ne_nil _ _

/-- No part of a text's name holds a dot. -/
theorem noDot_of_mem_ofText {text part : String} (h : part ∈ (ofText text).parts) :
    '.' ∉ part.toList := by
  rw [parts_ofText] at h
  obtain ⟨piece, hpiece, rfl⟩ := List.mem_map.mp h
  rw [String.toList_ofList]
  exact noDot_of_mem_splitOn hpiece

/-- The characters that are shown are those of the parts, joined by dots. -/
theorem toList_display (name : ObjectName) :
    name.display.toList = ['.'].intercalate (name.parts.map String.toList) :=
  String.toList_intercalate

/-- What is shown of a text's name is the text. -/
theorem display_ofText (text : String) : (ofText text).display = text := by
  have hpieces : (ofText text).parts.map String.toList = text.toList.splitOn '.' := by
    rw [parts_ofText, List.map_map]
    simp [Function.comp_def]
  rw [← String.toList_inj, toList_display, hpieces, List.intercalate_splitOn]

/-- A name comes back from what is shown of it exactly if it has a part and no part holds a dot. -/
theorem ofText_display_iff (name : ObjectName) :
    ofText name.display = name ↔ name.parts ≠ [] ∧ ∀ part ∈ name.parts, '.' ∉ part.toList := by
  constructor
  · intro h
    rw [← h]
    exact ⟨parts_ofText_ne_nil _, fun part => noDot_of_mem_ofText⟩
  · rintro ⟨hne, hnoDot⟩
    have hpieces : name.display.toList.splitOn '.' = name.parts.map String.toList := by
      rw [toList_display]
      refine List.splitOn_intercalate '.' ?_ (by simpa using hne)
      intro piece hpiece
      obtain ⟨part, hpart, rfl⟩ := List.mem_map.mp hpiece
      exact hnoDot part hpart
    have hparts : (ofText name.display).parts = name.parts := by
      rw [parts_ofText, hpieces, List.map_map]
      simp [Function.comp_def]
    exact congrArg mk hparts

/-- A text without dots is its own name. -/
theorem baseName_of_noDot {text : String} (h : '.' ∉ text.toList) :
    (ofText text).baseName = text := by
  rw [baseName, parts_ofText, List.splitOn_eq_singleton h]
  simp

/-- Behind its last dot a text has the name itself. -/
theorem baseName_append {front last : String} (h : '.' ∉ last.toList) :
    (ofText (front ++ "." ++ last)).baseName = last := by
  have hchars : (front ++ "." ++ last).toList = front.toList ++ '.' :: last.toList := by simp
  rw [baseName, parts_ofText, hchars, List.splitOn_append_cons_self, List.splitOn_eq_singleton h]
  simp

/-- A text with a dot has a last one. -/
theorem exists_lastDot {text : String} (h : '.' ∈ text.toList) :
    ∃ front last : String, text = front ++ "." ++ last ∧ '.' ∉ last.toList := by
  have hreverse : '.' ∈ text.toList.reverse := List.mem_reverse.mpr h
  obtain ⟨behind, before, hchars, hnoDot⟩ := List.eq_append_cons_of_mem hreverse
  refine ⟨String.ofList before.reverse, String.ofList behind.reverse, ?_, by simpa using hnoDot⟩
  have htext : text.toList = before.reverse ++ '.' :: behind.reverse := by
    rw [← List.reverse_reverse text.toList, hchars]
    simp
  rw [← String.toList_inj, htext]
  simp

/-- The name of any text is shown as the text, its parts hold no dot, and the last of them is what
stands behind the last dot, all of the text if it has none. The other way round, a name comes back
from what is shown of it exactly if it has at least one part and no part holds a dot. -/
theorem split_and_joined (text : String) (name : ObjectName) :
    (ofText text).display = text ∧
    (∀ part ∈ (ofText text).parts, '.' ∉ part.toList) ∧
    (('.' ∉ text.toList ∧ (ofText text).baseName = text) ∨
      ∃ front, text = front ++ "." ++ (ofText text).baseName ∧
        '.' ∉ (ofText text).baseName.toList) ∧
    (ofText name.display = name ↔
      name.parts ≠ [] ∧ ∀ part ∈ name.parts, '.' ∉ part.toList) := by
  refine ⟨display_ofText text, fun part => noDot_of_mem_ofText, ?_, ofText_display_iff name⟩
  by_cases h : '.' ∈ text.toList
  · obtain ⟨front, last, rfl, hlast⟩ := exists_lastDot h
    right
    rw [baseName_append hlast]
    exact ⟨front, rfl, hlast⟩
  · exact .inl ⟨h, baseName_of_noDot h⟩

/-- A quoted part with a dot is taken for two parts once it is shown. -/
example : ofText (display ⟨["sales", "year.2024"]⟩) = ⟨["sales", "year", "2024"]⟩ := by decide

end SqlDdl.ObjectName
