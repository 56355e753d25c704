import Mathlib.Data.List.Induction
import SqlDdl.Proofs.BadPlaces

/-!
# Places are what the text says

The place behind a text is found by counting: its line feeds, the characters behind the
last of them, and all of its characters. The counts that a scan carries from one character
to the next are these, so every place that a scan records, and the place at which it fails,
can be checked against the text alone.
-/

namespace SqlDdl

namespace Position

/-- A run of characters moves the line by the number of line feeds in it. -/
theorem line_afterAll (p : Position) (cs : List Char) :
    (p.afterAll cs).line = p.line + cs.count '\n' := by
  induction cs generalizing p with
  | nil => rfl
  | cons c cs ih =>
    have hstep : (p.afterAll (c :: cs)).line = (p.after c).line + cs.count '\n' := ih (p.after c)
    by_cases hc : c = '\n'
    · have hline : (p.after c).line = p.line + 1 := by simp [after, hc]
      rw [hstep, hline, hc, List.count_cons_self]
      omega
    · have hline : (p.after c).line = p.line := by simp [after, hc]
      rw [hstep, hline, List.count_cons_of_ne hc]

/-- Behind a run of characters from the start of a line on, the column is one more than the number
of characters behind the last line feed. -/
theorem column_afterAll {p : Position} (hp : p.column = 1) (cs : List Char) :
    (p.afterAll cs).column = 1 + (cs.reverse.takeWhile (· ≠ '\n')).length := by
  induction cs using List.reverseRecOn with
  | nil => exact hp
  | append_singleton cs c ih =>
    have hstep : p.afterAll (cs ++ [c]) = (p.afterAll cs).after c := p.afterAll_append cs [c]
    rw [hstep, List.reverse_append, List.reverse_singleton, List.singleton_append]
    by_cases hc : c = '\n'
    · simp [after, hc]
    · have hcolumn : ((p.afterAll cs).after c).column = (p.afterAll cs).column + 1 := by
        simp [after, hc]
      rw [hcolumn, ih, List.takeWhile_cons_of_pos (by simpa using hc), List.length_cons]
      omega

/-- Whether a place is the true one of a character of a text, or the end of the text: as many
characters stand before it as its offset says, and its line and column are those that these
characters make. -/
structure TrueIn (text : List Char) (p : Position) : Prop where
  /-- The offset lies in the text or at its end. -/
  inside : p.offset ≤ text.length
  /-- The line is one more than the line feeds before the offset. -/
  line : p.line = 1 + (text.take p.offset).count '\n'
  /-- The column is one more than the characters since the last of them. -/
  column : p.column = 1 + ((text.take p.offset).reverse.takeWhile (· ≠ '\n')).length

/-- The place behind the front of a text is a true one. -/
theorem trueIn_afterAll (front rest : List Char) :
    (start.afterAll front).TrueIn (front ++ rest) := by
  have hoffset : (start.afterAll front).offset = front.length := by
    rw [offset_afterAll]
    exact Nat.zero_add _
  have htake : (front ++ rest).take (start.afterAll front).offset = front := by
    rw [hoffset, List.take_left]
  refine ⟨?_, ?_, ?_⟩
  · rw [hoffset, List.length_append]
    omega
  · rw [htake]
    exact line_afterAll start front
  · rw [htake]
    exact column_afterAll rfl front

end Position

/-- Each piece of a text stands at a true place. -/
theorem Piece.exists_front {p : Position} {pieces : List Piece} {entry : Located}
    (h : entry ∈ located p pieces) :
    ∃ front rest, pieces.flatMap written = front ++ rest ∧ entry.position = p.afterAll front := by
  induction pieces generalizing p with
  | nil => exact absurd h List.not_mem_nil
  | cons piece pieces ih =>
    rcases List.mem_cons.mp h with rfl | h
    · refine ⟨layoutText piece.layout, piece.text ++ pieces.flatMap written, ?_, rfl⟩
      rw [List.flatMap_cons, written, List.append_assoc]
    · obtain ⟨front, rest, ht, hp⟩ := ih h
      refine ⟨piece.written ++ front, rest, ?_, ?_⟩
      · rw [List.flatMap_cons, ht, List.append_assoc]
      · rw [hp, Position.afterAll_append]

namespace TokenStream

variable {text : String} {stream : TokenStream} {error : Error}

/-- Every token of a scanned text stands at a true place. -/
theorem trueIn_of_scan (h : scan text = .ok stream) {entry : Located}
    (he : entry ∈ stream.entries.toList) : entry.position.TrueIn text.toList := by
  obtain ⟨pieces, last, ht, hentries⟩ := scanFrom_ok h
  have htext : text.toList = pieces.flatMap Piece.written ++ last.text := ht
  rw [hentries, Array.toList_empty, List.nil_append] at he
  rcases List.mem_append.mp he with hm | hm
  · obtain ⟨front, rest, hfront, hp⟩ := Piece.exists_front hm
    have hplace : entry.position = Position.start.afterAll front := hp
    rw [htext, hfront, List.append_assoc, hplace]
    exact Position.trueIn_afterAll front _
  · rw [List.mem_singleton.mp hm]
    have hend := Position.trueIn_afterAll text.toList []
    rwa [List.append_nil] at hend

/-- The places of the tokens, in the order of the text. -/
def positions (stream : TokenStream) : List Position := stream.entries.toList.map (·.position)

/-- All places that a scan gives are true: those of the tokens, of which each stands before the
next, one for every token; and that of the error, if the scan fails. -/
theorem trueIn_scan (text : String) :
    match scan text with
    | .ok stream =>
      (∀ position ∈ stream.positions, position.TrueIn text.toList) ∧
        stream.positions.Pairwise (·.offset < ·.offset) ∧
        stream.positions.length = stream.tokens.length
    | .error error =>
      ∃ position, error.position? = some position ∧ position.TrueIn text.toList := by
  cases h : scan text with
  | ok stream =>
    refine ⟨fun position hp => ?_, List.pairwise_map.mpr (pairwise_of_scan h), ?_⟩
    · obtain ⟨entry, he, rfl⟩ := List.mem_map.mp hp
      exact trueIn_of_scan h he
    · rw [positions, tokens, List.length_map, List.length_map]
  | error error =>
    obtain ⟨front, rest, ht, -, hplace, -⟩ := scanFrom_error h
    have htext : text.toList = front ++ rest := ht
    refine ⟨Position.start.afterAll front, hplace, ?_⟩
    rw [htext]
    exact Position.trueIn_afterAll front rest

end TokenStream

end SqlDdl
