import SqlDdl.Proofs.Scans
import SqlDdl.Proofs.Walks

/-!
# Looking beyond the end

Beyond the end of a stream the end of the input is seen, from wherever a walk has led and however
far ahead, as long as the index that is looked at is a 64-bit number. The index is summed up before
it is compared with the size of the stream, so that a sum that is no such number ends the walk with
a fault where the end of the input should be seen. It takes a request that is as close to the
greatest number as the stream is long, and for the greatest one a single step forward is enough.
-/

namespace SqlDdl.Cursor

variable {cursor : Cursor} {stream : TokenStream} {step : Step} {steps : List Step} {n : Nat}

/-- Steps forward lead to every index of the stream and to its end. -/
theorem walk_replicate_next {count : Nat} (h : cursor.index + count ≤ cursor.stream.size) :
    (cursor.walk (List.replicate count .next)).fault = none ∧
      (cursor.after (List.replicate count .next)).index = cursor.index + count := by
  induction count generalizing cursor with
  | zero => exact ⟨rfl, rfl⟩
  | succ count ih =>
    have hstream : cursor.advance.stream = cursor.stream := rfl
    have hindex : cursor.advance.index = cursor.index + 1 := if_pos (by omega)
    have hsize : cursor.advance.index + count ≤ cursor.stream.size := by omega
    obtain ⟨hfault, hrest⟩ := ih (hstream ▸ hsize)
    have hfirst : cursor.perform .next = .ok (.token cursor.peek, cursor.advance) := rfl
    rw [List.replicate_succ, after, walk_cons hfirst]
    refine ⟨hfault, hrest.trans ?_⟩
    omega

/-- A walk that was answered so far ends with a fault at the next request exactly if that one is
refused with it. -/
theorem fault_walk_concat {fault : Fault} (h : (cursor.walk steps).fault = none) :
    (cursor.walk (steps ++ [step])).fault = some fault ↔
      (cursor.after steps).perform step = .error fault := by
  have hlast : (cursor.walk (steps ++ [step])).fault =
      ((cursor.after steps).walk [step]).fault := by
    rw [walk_append, Walk.andThen, h]
  rw [hlast]
  cases hp : (cursor.after steps).perform step with
  | error other =>
    rw [walk_cons_fault hp, Option.some_inj, Except.error.injEq]
  | ok result =>
    obtain ⟨answer, behind⟩ := result
    rw [walk_cons hp]
    constructor
    · intro hf
      cases hf
    · intro hf
      cases hf

/-- The answer to a look ahead: the token at the index, the end of the input beyond the stream, and
a fault if the index is no 64-bit number. -/
theorem perform_lookAhead (cursor : Cursor) (n : Nat) :
    cursor.perform (.lookAhead n) =
      if cursor.index + n < UInt64.size then
        .ok (.token (cursor.stream.tokens[cursor.index + n]?.getD .eof), cursor)
      else .error .lookAheadOverflow := by
  rw [perform, lookAhead, peekNth, TokenStream.get?_eq_tokens]
  by_cases h : cursor.index + n < UInt64.size
  · rw [if_pos h, if_pos h]
    rfl
  · rw [if_neg h, if_neg h]
    rfl

/-- A look ahead is refused exactly if its index is no 64-bit number. -/
theorem perform_lookAhead_eq_error_iff :
    cursor.perform (.lookAhead n) = .error .lookAheadOverflow ↔
      UInt64.size ≤ cursor.index + n := by
  rw [perform_lookAhead]
  by_cases h : cursor.index + n < UInt64.size
  · simp [h]
  · simp [h, Nat.not_lt.mp h]

/-- Some walk leads to a place where a look ahead is refused exactly if it is refused from the end
of the stream. -/
theorem exists_fault_iff :
    (∃ steps, ((ofStream stream).walk steps).fault = none ∧
        ((ofStream stream).walk (steps ++ [.lookAhead n])).fault = some .lookAheadOverflow) ↔
      UInt64.size ≤ (ofStream stream).stream.size + n := by
  constructor
  · rintro ⟨steps, hanswered, hfault⟩
    have hwithin := (Within.ofStream stream).after steps
    have hindex := hwithin.index_le
    rw [hwithin.stream_eq] at hindex
    have hsum := perform_lookAhead_eq_error_iff.mp ((fault_walk_concat hanswered).mp hfault)
    omega
  · intro hsum
    -- No index is farther on than that of the end, and steps forward lead there.
    have hstart : (ofStream stream).index = 0 := rfl
    obtain ⟨hanswered, hend⟩ : ((ofStream stream).walk
        (List.replicate (ofStream stream).stream.size .next)).fault = none ∧
          ((ofStream stream).after (List.replicate (ofStream stream).stream.size .next)).index =
            (ofStream stream).index + (ofStream stream).stream.size :=
      walk_replicate_next (by omega)
    refine ⟨List.replicate (ofStream stream).stream.size .next, hanswered, ?_⟩
    rw [fault_walk_concat hanswered, perform_lookAhead_eq_error_iff, hend]
    omega

/-- Behind any walk a look ahead by a 64-bit number answers with the token at the sum of the index
and the number, and with the end of the input if the stream has none there, provided that the sum is
a 64-bit number too; else it ends the walk with a fault. A token of a stream of 64-bit size is seen
in any case. Some walk leads to the fault exactly if the sum of the size of the stream and the
number is too great. -/
theorem walk_lookAhead (stream : TokenStream) (n : UInt64) :
    let tokens := (ofStream stream).stream.tokens
    (∀ steps,
      let cursor := (ofStream stream).after steps
      ((ofStream stream).walk (steps ++ [.lookAhead n.toNat]) =
        ((ofStream stream).walk steps).andThen
          (if cursor.index + n.toNat < UInt64.size then
            ⟨[(.token (tokens[cursor.index + n.toNat]?.getD .eof), cursor)], cursor, none⟩
          else ⟨[], cursor, some .lookAheadOverflow⟩)) ∧
        (tokens.length ≤ UInt64.size → ∀ token, tokens[cursor.index + n.toNat]? = some token →
          cursor.perform (.lookAhead n.toNat) = .ok (.token token, cursor))) ∧
    ((∃ steps, ((ofStream stream).walk steps).fault = none ∧
        ((ofStream stream).walk (steps ++ [.lookAhead n.toNat])).fault =
          some .lookAheadOverflow) ↔
      UInt64.size ≤ tokens.length + n.toNat) := by
  intro tokens
  refine ⟨fun steps => ⟨?_, fun hsize token htoken => ?_⟩, ?_⟩
  · have hstream := ((Within.ofStream stream).after steps).stream_eq
    have hanswer := perform_lookAhead ((ofStream stream).after steps) n.toNat
    rw [hstream] at hanswer
    rw [walk_append]
    split
    next hsum =>
      rw [if_pos hsum] at hanswer
      exact congrArg _ (walk_cons hanswer)
    next hsum =>
      rw [if_neg hsum] at hanswer
      exact congrArg _ (walk_cons_fault hanswer)
  · have hstream := ((Within.ofStream stream).after steps).stream_eq
    have hinside := (List.getElem?_eq_some_iff.mp htoken).1
    have hsum : ((ofStream stream).after steps).index + n.toNat < UInt64.size := by omega
    rw [perform_lookAhead, if_pos hsum, hstream, htoken, Option.getD_some]
  · rw [exists_fault_iff, TokenStream.size_eq_length]

/-- The tokens of the text `a`. -/
def singleWord : TokenStream := ⟨#[⟨.word ⟨"a", false⟩, .start⟩, ⟨.eof, ⟨1, 2, 1⟩⟩]⟩

/-- Behind one step forward in the text `a`, a look ahead by the greatest number ends the walk with
a fault, although the stream has no token that far ahead and the end of the input should be seen. -/
theorem walk_lookAhead_greatest :
    TokenStream.scan "a" = .ok singleWord ∧
    let cursor := (ofStream singleWord).after [.next]
    cursor.stream.tokens[cursor.index + (18446744073709551615 : UInt64).toNat]? = none ∧
      (ofStream singleWord).walk [.next, .lookAhead (18446744073709551615 : UInt64).toNat] =
        ⟨[(.token (.word ⟨"a", false⟩), cursor)], cursor, some .lookAheadOverflow⟩ := by
  refine ⟨by decide +kernel, ?_, ?_⟩
  · exact List.getElem?_eq_none (by decide)
  · have hnext : (ofStream singleWord).perform .next =
        .ok (.token (.word ⟨"a", false⟩), (ofStream singleWord).advance) := rfl
    have hrefused : (ofStream singleWord).advance.perform
        (.lookAhead (18446744073709551615 : UInt64).toNat) = .error .lookAheadOverflow := by
      rw [perform_lookAhead]
      decide
    rw [walk_cons hnext, walk_cons_fault hrefused]
    rfl

end SqlDdl.Cursor
