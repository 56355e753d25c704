import Mathlib.Data.List.Nodup
import SqlDdl.Json

/-!
# Reading back from JSON

A value is read back if what is read from the JSON value that it is written as is that value
again. In between, members of objects whose value is `null` may be left out: they stand for
fields that may be missing, and a field that may not be missing is never written as `null`.
-/

namespace SqlDdl.Json

mutual

/-- A JSON value is another one without some of the members of its objects that are `null`. -/
inductive AbridgedTo : Json → Json → Prop where
  | null : AbridgedTo .null .null
  | bool (value : Bool) : AbridgedTo (.bool value) (.bool value)
  | integer (value : Int) : AbridgedTo (.integer value) (.integer value)
  | fraction (digits : Int) (places : Nat) :
      AbridgedTo (.fraction digits places) (.fraction digits places)
  | string (value : String) : AbridgedTo (.string value) (.string value)
  | array {items others : List Json} (each : ItemsAbridgedTo items others) :
      AbridgedTo (.array items) (.array others)
  | object {members others : List (String × Json)} (each : MembersAbridgedTo members others) :
      AbridgedTo (.object members) (.object others)

/-- The items of a list are those of another one, each perhaps abridged. -/
inductive ItemsAbridgedTo : List Json → List Json → Prop where
  | nil : ItemsAbridgedTo [] []
  | cons {item other : Json} {items others : List Json} (first : AbridgedTo item other)
      (each : ItemsAbridgedTo items others) : ItemsAbridgedTo (item :: items) (other :: others)

/-- The members of an object are those of another one, each perhaps abridged, without some that
are `null`. -/
inductive MembersAbridgedTo : List (String × Json) → List (String × Json) → Prop where
  | nil : MembersAbridgedTo [] []
  | keep {name : String} {value other : Json} {members others : List (String × Json)}
      (first : AbridgedTo value other) (each : MembersAbridgedTo members others) :
      MembersAbridgedTo ((name, value) :: members) ((name, other) :: others)
  | leaveOut {name : String} {members others : List (String × Json)}
      (each : MembersAbridgedTo members others) :
      MembersAbridgedTo ((name, .null) :: members) others

end

mutual

/-- Nothing has to be left out of a value. -/
theorem AbridgedTo.refl : (value : Json) → value.AbridgedTo value
  | .null => .null
  | .bool value => .bool value
  | .integer value => .integer value
  | .fraction digits places => .fraction digits places
  | .string value => .string value
  | .array items => .array (ItemsAbridgedTo.refl items)
  | .object members => .object (MembersAbridgedTo.refl members)

/-- Nothing has to be left out of the items of a list. -/
theorem ItemsAbridgedTo.refl : (items : List Json) → ItemsAbridgedTo items items
  | [] => .nil
  | item :: items => .cons (AbridgedTo.refl item) (ItemsAbridgedTo.refl items)

/-- Nothing has to be left out of the members of an object. -/
theorem MembersAbridgedTo.refl : (members : List (String × Json)) →
    MembersAbridgedTo members members
  | [] => .nil
  | (_, value) :: members => .keep (AbridgedTo.refl value) (MembersAbridgedTo.refl members)

end

/-- What is found for a name: the same value, perhaps abridged; nothing in both places; or nothing
in place of `null`. -/
inductive FieldAbridgedTo : Option Json → Option Json → Prop where
  | missing : FieldAbridgedTo none none
  | kept {value other : Json} (h : AbridgedTo value other) :
      FieldAbridgedTo (some value) (some other)
  | leftOut : FieldAbridgedTo (some .null) none

/-- Only `null` is abridged to `null`. -/
theorem AbridgedTo.ne_null {value other : Json} (h : value.AbridgedTo other)
    (hvalue : value ≠ .null) : other ≠ .null := by
  cases h with
  | null => exact absurd rfl hvalue
  | _ => nofun

/-- What is not `null` is not left out. -/
theorem FieldAbridgedTo.found {value : Json} {field : Option Json}
    (h : FieldAbridgedTo (some value) field) (hvalue : value ≠ .null) :
    ∃ other, field = some other ∧ value.AbridgedTo other := by
  cases h with
  | kept h => exact ⟨_, rfl, h⟩
  | leftOut => exact absurd rfl hvalue

/-- Names that are not among the members of an object are not among those left. -/
theorem MembersAbridgedTo.lookup_eq_none {members others : List (String × Json)} {name : String}
    (h : MembersAbridgedTo members others) (hname : name ∉ members.map (·.1)) :
    others.lookup name = none := by
  induction members generalizing others with
  | nil =>
    cases h
    rfl
  | cons member members ih =>
    have hother : (name == member.1) = false := by
      have hne : name ≠ member.1 := fun he => hname (by simp [he])
      simpa using hne
    have hbehind : name ∉ members.map (·.1) := fun hm => hname (by simp [hm])
    cases h with
    | keep first each => simpa only [List.lookup_cons, hother] using ih each hbehind
    | leaveOut each => exact ih each hbehind

/-- In an object of different names every member is found under its name, if it is left. -/
theorem MembersAbridgedTo.lookup {members others : List (String × Json)}
    (h : MembersAbridgedTo members others) (hnames : (members.map (·.1)).Nodup) (name : String) :
    FieldAbridgedTo (members.lookup name) (others.lookup name) := by
  induction members generalizing others with
  | nil =>
    cases h
    exact .missing
  | cons member members ih =>
    have hbehind := (List.nodup_cons.mp hnames).2
    cases h with
    | @keep first value other _ _ hvalue each =>
      have hrest := ih each hbehind
      cases hname : name == first with
      | true => simpa only [List.lookup_cons, hname] using FieldAbridgedTo.kept hvalue
      | false => simpa only [List.lookup_cons, hname] using hrest
    | @leaveOut first _ _ each =>
      have hrest := ih each hbehind
      cases hname : name == first with
      | true =>
        -- No other member has this name, so that nothing is found in place of the one left out.
        have hnone : others.lookup name = none := by
          refine each.lookup_eq_none ?_
          rw [beq_iff_eq.mp hname]
          exact (List.nodup_cons.mp hnames).1
        simpa only [List.lookup_cons, hname, hnone] using FieldAbridgedTo.leftOut
      | false => simpa only [List.lookup_cons, hname] using hrest

/-- An alternative that carries something carries the same, perhaps abridged. -/
theorem AbridgedTo.tagged {tag : String} {body value : Json}
    (h : (Json.tagged tag body).AbridgedTo value) (hbody : body ≠ .null) :
    ∃ other, value = Json.tagged tag other ∧ body.AbridgedTo other := by
  cases h with
  | object each =>
    cases each with
    | keep first rest =>
      cases rest
      exact ⟨_, rfl, first⟩
    | leaveOut => exact absurd rfl hbody

variable {α : Type} {encode : α → Json} {decode : Json → Option α}

/-- Values of a type are never written as `null` and are read back from what they are written as,
however much of it is left out. -/
structure ReadsBack (encode : α → Json) (decode : Json → Option α) : Prop where
  /-- What a value is written as is not taken for a missing one. -/
  ne_null (a : α) : encode a ≠ .null
  /-- Whatever of its missing parts is left out, the value is read back. -/
  decode_eq {a : α} {value : Json} (h : (encode a).AbridgedTo value) : decode value = some a

namespace ReadsBack

/-- What is written in full is read back. -/
theorem decode_encode (h : ReadsBack encode decode) (a : α) : decode (encode a) = some a :=
  h.decode_eq (.refl _)

/-- Different values are written differently. -/
theorem injective (h : ReadsBack encode decode) : Function.Injective encode := by
  intro a b heq
  have ha := h.decode_encode a
  rw [heq, h.decode_encode b] at ha
  exact (Option.some.inj ha).symm

/-- A field that may not be missing is found and read back. -/
theorem field (h : ReadsBack encode decode) {a : α} {found : Option Json}
    (hfield : FieldAbridgedTo (some (encode a)) found) :
    ∃ value, found = some value ∧ decode value = some a := by
  obtain ⟨value, hfound, hvalue⟩ := hfield.found (h.ne_null a)
  exact ⟨value, hfound, h.decode_eq hvalue⟩

/-- A field that may be missing is read back whether it is left out or not. -/
theorem optional (h : ReadsBack encode decode) {a : Option α} {found : Option Json}
    (hfield : FieldAbridgedTo (some (ofOption encode a)) found) :
    optional? decode found = some a := by
  cases a with
  | none =>
    rw [ofOption] at hfield
    cases hfield with
    | kept hvalue =>
      cases hvalue
      rfl
    | leftOut => rfl
  | some a =>
    obtain ⟨value, hfound, hvalue⟩ := hfield.found (h.ne_null a)
    have hnull : value ≠ .null := hvalue.ne_null (h.ne_null a)
    rw [hfound, optional?, h.decode_eq hvalue]
    · rfl
    · exact hnull

end ReadsBack

/-- Truth values are read back. -/
theorem readsBack_bool : ReadsBack .bool bool? where
  ne_null _ := nofun
  decode_eq h := by
    cases h
    rfl

/-- Texts are read back. -/
theorem readsBack_string : ReadsBack .string string? where
  ne_null _ := nofun
  decode_eq h := by
    cases h
    rfl

/-- Lists are read back item by item. -/
theorem ReadsBack.list (h : ReadsBack encode decode) :
    ReadsBack (fun items : List α => .array (items.map encode)) (list? decode) where
  ne_null _ := nofun
  decode_eq := by
    intro items value hvalue
    cases hvalue with
    | @array _ others each =>
      rw [list?]
      induction items generalizing others with
      | nil =>
        cases each
        rfl
      | cons item items ih =>
        cases each with
        | cons first each =>
          have hitem := h.decode_eq first
          have hitems := ih each
          simp [List.mapM_cons, hitem, hitems]

/-- Lists of texts are read back. -/
theorem readsBack_strings : ReadsBack ofStrings strings? := readsBack_string.list

end SqlDdl.Json
