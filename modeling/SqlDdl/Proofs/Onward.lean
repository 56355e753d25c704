import SqlDdl.Proofs.Laws
import SqlDdl.Proofs.Stops

/-!
# What follows a part of a reading

A reading that comes to one of its parts depends on it in two ways. Where the part fails, the
reading fails in the same way. Where the part gives a value, the reading ends behind it: with a
value of its own that has to do with the value of the part, or with an error that points at a token
behind it. Sequences and repetitions that come to a part in this way are put together here from
those that do, as long as what follows only reads onward.
-/

namespace SqlDdl.Grammar

variable {α β γ : Type} {c c₁ : Cursor} {s s₁ : State} {ts us rest : List Token}
  {P P' : α → Prop} {result : EStateM.Result Failure State α}

/-- A reading ended behind a cursor, with a value that has a property or with an error that points
at a token from there on. Of faults nothing is said. -/
def EndsBehind (c : Cursor) (P : α → Prop) : EStateM.Result Failure State α → Prop
  | .ok a s => (∃ ts, c.Passes ts s.cursor) ∧ P a
  | .error (.error error) _ => ∃ ts, c.Breaks ts error
  | .error (.fault _) _ => True

namespace EndsBehind

/-- What ended behind a place ended behind every earlier one. -/
theorem passes (h : EndsBehind c₁ P result) (hpass : c.Passes us c₁) : EndsBehind c P result := by
  match result, h with
  | .ok a s, ⟨⟨ts, hts⟩, ha⟩ => exact ⟨⟨_, hpass.trans hts⟩, ha⟩
  | .error (.error error) s, ⟨ts, hts⟩ => exact ⟨_, hpass.breaks hts⟩
  | .error (.fault fault) s, _ => trivial

/-- The property may be any that follows for the value that was given. -/
theorem mono (h : EndsBehind c P result) (hP : ∀ a s', result = .ok a s' → P a → P' a) :
    EndsBehind c P' result := by
  match result, h, hP with
  | .ok a s, ⟨hts, ha⟩, hP => exact ⟨hts, hP a s rfl ha⟩
  | .error (.error error) s, hts, _ => exact hts
  | .error (.fault fault) s, _, _ => trivial

/-- The end of a first part carries over to the whole. -/
theorem bind {p : Reading α} {f : α → Reading β} {P' : β → Prop} (hc : c.Closed)
    (h : EndsBehind c P (p s))
    (hf : ∀ a s₁, s₁.cursor.Closed → P a → EndsBehind s₁.cursor P' (f a s₁)) :
    EndsBehind c P' ((p >>= f) s) := by
  cases hp : p s with
  | error failure s₁ =>
    rw [hp] at h
    rw [run_bind_error hp]
    cases failure with
    | error error => exact h
    | fault fault => trivial
  | ok a s₁ =>
    rw [hp] at h
    obtain ⟨⟨us, hus⟩, ha⟩ := h
    rw [run_bind hp]
    exact (hf a s₁ (hus.closed hc) ha).passes hus

end EndsBehind

/-- Where the end of the input lies ahead, a reading that gives a value passes over some tokens, and
one that fails with an error points at a token from where it began. -/
def Law.onward : Law where
  begins s := s.cursor.Closed
  gives s s' := ∃ ts, s.cursor.Passes ts s'.cursor
  fails s failure _ :=
    match failure with
    | .error error => ∃ ts, s.cursor.Breaks ts error
    | .fault _ => True
  stays _ := ⟨[], .refl _⟩
  begins_behind hc hgives := by
    obtain ⟨ts, hpass⟩ := hgives
    exact hpass.closed hc
  gives_behind hgives hmore := by
    obtain ⟨ts, hpass⟩ := hgives
    obtain ⟨us, hmore⟩ := hmore
    exact ⟨ts ++ us, hpass.trans hmore⟩
  fails_behind {_ _ failure _} hgives hfails := by
    obtain ⟨ts, hpass⟩ := hgives
    cases failure with
    | error error =>
      obtain ⟨us, hbreaks⟩ := hfails
      exact ⟨ts ++ us, hpass.breaks hbreaks⟩
    | fault fault => trivial
  stalls _ := trivial

/-- Wherever a reading begins, it ends behind that place. -/
def Onward (p : Reading α) : Prop := Obeys .onward p

namespace Onward

/-- A reading onward ends behind where it began. -/
theorem endsBehind {p : Reading α} (h : Onward p) (hc : s.cursor.Closed) :
    EndsBehind s.cursor (fun _ => True) (p s) := by
  have hend := h s hc
  cases hrun : p s with
  | ok a s' =>
    rw [hrun] at hend
    exact ⟨hend, trivial⟩
  | error failure s' =>
    rw [hrun] at hend
    cases failure <;> exact hend

/-- A reading that stops in what it spells reads onward. -/
theorem of_stops {p : Reading α} {begun ended : List Token → Prop} (hp : Stops p begun)
    (hs : Spells p ended) : Onward p := by
  intro s hc
  cases h : p s with
  | ok a s' =>
    obtain ⟨ts, -, hpass⟩ := hs hc h
    exact ⟨ts, hpass⟩
  | error failure s' =>
    cases failure with
    | error error =>
      obtain ⟨ts, hb, -⟩ := hp _ _ _ hc h
      exact ⟨ts, hb⟩
    | fault fault => trivial

/-- Keeping an event reads onward. -/
theorem record (event : Event) : Onward (record event) := fun _ _ => ⟨[], .refl _⟩

/-- A refused token is not read. -/
theorem reject (expectation : Expectation) : Onward (reject expectation : Reading α) :=
  fun _ hc => ⟨[], .here hc.entry⟩

/-- A conditional step reads onward. -/
theorem consume {token : Token} (ht : token ≠ .eof) : Onward (consume token) := by
  intro s hc
  obtain ⟨found, s', h⟩ := consume_total token s
  rw [h]
  rcases consume_ok h ht with ⟨-, hpass⟩ | ⟨-, rfl⟩
  · exact ⟨_, hpass⟩
  · exact ⟨[], .refl _⟩

/-- A required token is read onward. -/
theorem require {token : Token} (ht : token ≠ .eof) : Onward (require token) :=
  (consume ht).bind fun _ => .ite (.pure ()) (reject _)

end Onward

/-- From a state a reading comes to one of its parts behind the given tokens: where the part fails,
it fails in the same way, and behind a value of the part it ends with a value that fits, or at a
token there. -/
def LeadsTo (part : Reading γ) (p : Reading α) (s : State) (ts : List Token)
    (Fits : γ → α → Prop) : Prop :=
  ∃ s₁ : State, s.Passes ts s₁ ∧
    (∀ failure s', part s₁ = .error failure s' → p s = .error failure s') ∧
    ∀ value s', part s₁ = .ok value s' → s'.cursor.Closed →
      EndsBehind s'.cursor (Fits value) (p s)

namespace LeadsTo

variable {part : Reading γ} {Fits : γ → α → Prop} {Fits' : γ → β → Prop}

/-- A part leads to itself. -/
theorem self (part : Reading γ) (s : State) :
    LeadsTo part part s [] fun value result => result = value := by
  refine ⟨s, .refl s, fun _ _ h => h, fun value s' h _ => ?_⟩
  rw [h]
  exact ⟨⟨[], .refl _⟩, rfl⟩

/-- A reading that goes on as another one behind some tokens leads to where that one does. -/
theorem behind {p q : Reading α} (h : LeadsTo part q s₁ ts Fits) (hrun : p s = q s₁)
    (hpass : s.Passes us s₁) : LeadsTo part p s (us ++ ts) Fits := by
  obtain ⟨s₂, hts, hfail, hends⟩ := h
  refine ⟨s₂, hpass.trans hts, ?_, ?_⟩
  · rw [hrun]
    exact hfail
  · rw [hrun]
    exact hends

/-- A reading that goes on as another one from the same state leads to where that one does. -/
theorem of_run {p q : Reading α} (h : LeadsTo part q s ts Fits) (hrun : p s = q s) :
    LeadsTo part p s ts Fits :=
  h.behind hrun (.refl s)

/-- A sequence leads to a part of what follows a first reading. -/
theorem afterRead {q : Reading β} {f : β → Reading α} {b : β} (hq : Reads q s us rest b)
    (h : ∀ s₁ : State, s₁.nesting = s.nesting → s₁.cursor.ahead = rest →
      LeadsTo part (f b) s₁ ts Fits) : LeadsTo part (q >>= f) s (us ++ ts) Fits := by
  obtain ⟨s₁, hq, hpass, hahead⟩ := hq
  exact (h s₁ hpass.nesting hahead).behind (run_bind hq) hpass

/-- A sequence leads to a part of its first reading, if it reads onward behind it. -/
theorem bind {p : Reading α} {f : α → Reading β} (h : LeadsTo part p s ts Fits)
    (hf : ∀ a, Onward (f a))
    (hfits : ∀ {value a b s₁ s'}, Fits value a → f a s₁ = .ok b s' → Fits' value b) :
    LeadsTo part (p >>= f) s ts Fits' := by
  obtain ⟨s₁, hts, hfail, hends⟩ := h
  refine ⟨s₁, hts, fun failure s' hpart => run_bind_error (hfail failure s' hpart),
    fun value s' hpart hc => (hends value s' hpart hc).bind hc fun a s₂ hc₂ ha => ?_⟩
  exact ((hf a).endsBehind hc₂).mono fun b s₃ hb _ => hfits ha hb

/-- A repetition leads to a part of its first step, if its steps read onward. -/
theorem repeatStep {step : α → Reading (α ⊕ β)} {Fits : γ → α ⊕ β → Prop} {a : α}
    (h : LeadsTo part (step a) s ts Fits) (hstep : ∀ a, Onward (step a))
    (hlast : ∀ {value b}, Fits value (.inr b) → Fits' value b)
    (hagain : ∀ {value a' b s₁ s'}, Fits value (.inl a') →
      Grammar.repeatStep step a' s₁ = .ok b s' → Fits' value b) :
    LeadsTo part (Grammar.repeatStep step a) s ts Fits' := by
  obtain ⟨s₁, hts, hfail, hends⟩ := h
  refine ⟨s₁, hts, fun failure s' hpart => repeatStep_failed (hfail failure s' hpart),
    fun value s' hpart hc => ?_⟩
  have hends := hends value s' hpart hc
  cases hs : step a s with
  | error failure s₂ =>
    rw [hs] at hends
    rw [repeatStep_failed hs]
    cases failure <;> exact hends
  | ok result s₂ =>
    rw [hs] at hends
    obtain ⟨⟨us, hus⟩, hfits⟩ := hends
    rw [Grammar.repeatStep, hs]
    cases result with
    | inr b => exact ⟨⟨us, hus⟩, hlast hfits⟩
    | inl a' =>
      dsimp only
      split
      · have hrest : Onward (Grammar.repeatStep step a') := Obeys.repeatStep hstep a'
        exact ((hrest.endsBehind (hus.closed hc)).mono fun b s₃ hb _ => hagain hfits hb).passes hus
      · trivial

/-- A repetition that goes on over some steps leads to a part of what follows them. -/
theorem goesOn {step : α → Reading (α ⊕ β)} {a a' : α} (hgo : GoesOn step a s us rest a')
    (h : ∀ s₁ : State, s₁.nesting = s.nesting → s₁.cursor.ahead = rest →
      LeadsTo part (Grammar.repeatStep step a') s₁ ts Fits') :
    LeadsTo part (Grammar.repeatStep step a) s (us ++ ts) Fits' := by
  obtain ⟨s₁, hrun, hpass, hahead⟩ := hgo
  exact (h s₁ hpass.nesting hahead).behind hrun hpass

end LeadsTo

/-! Lists with commas up to a closing parenthesis, of which some items are behind. -/

section Lists

variable {Phrase : Type} {tokens : Phrase → List Token} {meaning : Phrase → α} {item : Reading α}
  {part : Reading γ} {Fits : γ → α → Prop}

/-- A list up to its closing parenthesis goes on over items that have a comma behind them. -/
theorem closedStep_goesOn_over (expectation : Expectation) {count : Nat} {phrases : List Phrase}
    (hitem : ∀ phrase ∈ phrases, ∀ {s : State} {rest : List Token}, s.nesting = count →
      s.cursor.ahead = tokens phrase ++ .comma :: rest →
      Reads item s (tokens phrase) (.comma :: rest) (meaning phrase))
    (found : List α) (hs : s.nesting = count)
    (h : s.cursor.ahead = phrases.flatMap (tokens · ++ [.comma]) ++ rest) :
    GoesOn (closedStep item expectation) found s (phrases.flatMap (tokens · ++ [.comma])) rest
      ((phrases.map meaning).reverse ++ found) := by
  induction phrases generalizing s found with
  | nil => exact .refl h
  | cons first others ih =>
    rw [List.flatMap_cons, List.append_assoc, List.append_assoc] at h
    have hstep := closedStep_goesOn expectation found (hitem first List.mem_cons_self hs h)
    have hne : tokens first ++ [.comma] ≠ [] :=
      List.append_ne_nil_of_right_ne_nil _ (List.cons_ne_nil _ _)
    have hall := GoesOn.again hstep hne fun s₁ hn ha =>
      ih (fun phrase hp => hitem phrase (List.mem_cons_of_mem _ hp)) (meaning first :: found)
        (hn.trans hs) ha
    rw [List.flatMap_cons, List.map_cons, List.reverse_cons, List.append_assoc _ _ found]
    exact hall

/-- Behind an item the list goes on or ends with what was found. -/
theorem afterItem_ok {expectation : Expectation} {found : List α} {result : List α ⊕ List α}
    {s' : State} (h : afterItem expectation found s = .ok result s') :
    result = .inl found ∨ result = .inr found.reverse := by
  obtain ⟨closes, s₁, -, h⟩ := bind_ok h
  cases closes with
  | true => exact .inr (pure_ok h).1.symm
  | false =>
    obtain ⟨goesOn, s₂, -, h⟩ := bind_ok h
    cases goesOn with
    | true => exact .inl (pure_ok h).1.symm
    | false => exact (reject_ok h).elim

/-- What stands behind an item is read onward. -/
theorem afterItem_onward (expectation : Expectation) (found : List α) :
    Onward (afterItem expectation found) :=
  .afterItem_of (Onward.consume (by decide)) (Onward.consume (by decide)) (Onward.reject _) found

/-- What was found before a step of a list stands before all that is found behind. -/
theorem prefix_of_closedStep {expectation : Expectation} {found values : List α} {s' : State}
    (h : repeatStep (closedStep item expectation) found s = .ok values s') :
    found.reverse <+: values := by
  refine repeatStep_ok (motive := fun found _ values _ => found.reverse <+: values) ?_ ?_ h
  · intro found s values s' h
    obtain ⟨a, s₁, -, h⟩ := bind_ok h
    rcases afterItem_ok h with hresult | hresult
    · cases hresult
    · cases hresult
      rw [List.reverse_cons]
      exact List.prefix_append _ _
  · intro found s found' s₁ values s' h ih
    obtain ⟨a, s₂, -, h⟩ := bind_ok h
    rcases afterItem_ok h with hresult | hresult
    · cases hresult
      rw [List.reverse_cons] at ih
      exact (List.prefix_append _ _).trans ih
    · cases hresult

/-- A list comes to a part of an item behind other items. -/
theorem closedList_leadsTo (expectation : Expectation) {count : Nat} {phrases : List Phrase}
    (hitem : ∀ phrase ∈ phrases, ∀ {s : State} {rest : List Token}, s.nesting = count →
      s.cursor.ahead = tokens phrase ++ .comma :: rest →
      Reads item s (tokens phrase) (.comma :: rest) (meaning phrase))
    (hs : s.nesting = count) (honward : Onward item)
    (hlead : ∀ s₁ : State, s₁.nesting = s.nesting → s₁.cursor.ahead = rest →
      LeadsTo part item s₁ ts Fits)
    (h : s.cursor.ahead = phrases.flatMap (tokens · ++ [.comma]) ++ rest) :
    LeadsTo part (closedList item expectation) s (phrases.flatMap (tokens · ++ [.comma]) ++ ts)
      fun value values => ∃ a, Fits value a ∧ phrases.map meaning ++ [a] <+: values := by
  rw [closedList_eq]
  refine LeadsTo.goesOn (closedStep_goesOn_over expectation hitem [] hs h) fun s₁ hn ha => ?_
  have hstep : LeadsTo part (closedStep item expectation ((phrases.map meaning).reverse ++ [])) s₁
      ts fun value result => ∃ a, Fits value a ∧
        (result = .inl (a :: (phrases.map meaning).reverse) ∨
          result = .inr (phrases.map meaning ++ [a])) := by
    rw [closedStep_eq, List.append_nil]
    refine (hlead s₁ hn ha).bind (fun a => afterItem_onward expectation _) ?_
    intro value a result s₂ s₃ ha hrun
    refine ⟨a, ha, ?_⟩
    rcases afterItem_ok hrun with rfl | rfl
    · exact .inl rfl
    · rw [List.reverse_cons, List.reverse_reverse]
      exact .inr rfl
  have hsteps : ∀ found, Onward (closedStep item expectation found) := fun found =>
    honward.bind fun a => afterItem_onward expectation _
  refine hstep.repeatStep hsteps ?_ ?_
  · rintro value values ⟨a, ha, hresult | hresult⟩
    · cases hresult
    · cases hresult
      exact ⟨a, ha, List.prefix_rfl⟩
  · rintro value found values s₂ s₃ ⟨a, ha, hresult | hresult⟩ hrun
    · cases hresult
      have hfound := prefix_of_closedStep hrun
      rw [List.reverse_cons, List.reverse_reverse] at hfound
      exact ⟨a, ha, hfound⟩
    · cases hresult

end Lists

end SqlDdl.Grammar
