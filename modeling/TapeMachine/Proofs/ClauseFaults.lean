import TapeMachine.Proofs.Sources

/-!
# Faulty clauses

The tokens of a source are read three by three.  Three tokens that are no clause, or fewer that are
left at the end, decide by themselves which fault the source has: the clauses before them have been
read, and what stands behind them is not looked at.

* `NoClause`: what is wrong with the fields of a cause and an effect, from left to right.
* `Faulty`: what is wrong with a group of tokens.
* `readAll_eq_error_iff_take`: the first group is faulty, or it is a clause and the rest is faulty.
* `ofTokens_eq_error_iff`: **the first group that is no clause decides the fault.**
-/

namespace TapeMachine

/-! ### Fields -/

def NamesState (f : Field) : Prop := ∃ text q, f = some text ∧ readState text = .ok q

def NamesSymbol (read : SymbolReader) (f : Field) : Prop := ∃ a, IsSymbol read f a

inductive NoState : Field → SourceFault → Prop
  | absent : NoState none (.field Field.absent .state)
  | text {text : String} : (∀ q, readState text ≠ .ok q) → NoState (some text) (.field text .state)

/-- A field without text is a symbol, so only a text can fail to be one. -/
inductive NoSymbol (read : SymbolReader) : Field → SourceFault → Prop
  | text {text : String} : (∀ a, read text ≠ .ok a) →
      NoSymbol read (some text) (.field text .symbol)

inductive NoMove : Field → SourceFault → Prop
  | absent : NoMove none .noMove
  | text {text : String} : Move.read? text = none → NoMove (some text) (.field text .move)

/-! ### Clauses -/

/-- What is wrong with the fields of a clause.  Those of a rule are looked at from left to right, so
that each fault supposes that the fields before it are right. -/
inductive NoClause (read : SymbolReader) : List Field → List Field → SourceFault → Prop
  | startAbsent : NoClause read [] [none] .noStart
  | start {text : String} {fault : SourceFault} :
      NoState (some text) fault → NoClause read [] [some text] fault
  | state {state symbol newState newSymbol move : Field} {fault : SourceFault} :
      NoState state fault → NoClause read [state, symbol] [newState, newSymbol, move] fault
  | symbol {state symbol newState newSymbol move : Field} {fault : SourceFault} :
      NamesState state → NoSymbol read symbol fault →
      NoClause read [state, symbol] [newState, newSymbol, move] fault
  | newState {state symbol newState newSymbol move : Field} {fault : SourceFault} :
      NamesState state → NamesSymbol read symbol → NoState newState fault →
      NoClause read [state, symbol] [newState, newSymbol, move] fault
  | newSymbol {state symbol newState newSymbol move : Field} {fault : SourceFault} :
      NamesState state → NamesSymbol read symbol → NamesState newState →
      NoSymbol read newSymbol fault →
      NoClause read [state, symbol] [newState, newSymbol, move] fault
  | move {state symbol newState newSymbol move : Field} {fault : SourceFault} :
      NamesState state → NamesSymbol read symbol → NamesState newState →
      NamesSymbol read newSymbol → NoMove move fault →
      NoClause read [state, symbol] [newState, newSymbol, move] fault
  | arity {cause effect : List Field} :
      ¬ (cause.length = 0 ∧ effect.length = 1) → ¬ (cause.length = 2 ∧ effect.length = 3) →
      NoClause read cause effect (.arity cause.length effect.length)

/-- What is wrong with a group of up to three tokens. -/
inductive Faulty (read : SymbolReader) : List Token → SourceFault → Prop
  | first {others : List Token} : Faulty read (.arrow :: others) (.noClause .arrow)
  | single {cause : List Field} : Faulty read [.group cause] (.noEffect (.group cause))
  | second {cause other : List Field} {others : List Token} :
      Faulty read (.group cause :: .group other :: others) (.noClause (.group other))
  | pair {cause : List Field} : Faulty read [.group cause, .arrow] (.noEffect (.group cause))
  | third {cause : List Field} : Faulty read [.group cause, .arrow, .arrow] (.noClause .arrow)
  | fields {cause effect : List Field} {fault : SourceFault} : NoClause read cause effect fault →
      Faulty read [.group cause, .arrow, .group effect] fault

/-- The tokens of the `n`-th group, fewer than three at the end of the list. -/
def groupAt (tokens : List Token) (n : ℕ) : List Token := (tokens.drop (3 * n)).take 3

def IsClauseGroup (read : SymbolReader) (group : List Token) : Prop :=
  ∃ c, AreClauses read group [c]

section Reading

variable {read : SymbolReader} {f : Field} {cause effect : List Field} {fault : SourceFault}
  {tokens group : List Token}

/-! ### Faults of fields -/

theorem stateField_eq_error_iff : stateField f = .error fault ↔ NoState f fault := by
  cases f with
  | none =>
    constructor
    · intro h
      cases h
      exact .absent
    · rintro ⟨⟩
      rfl
  | some text =>
    cases h : readState text with
    | ok q =>
      constructor
      · intro hs
        simp [stateField, h] at hs
      · rintro (_ | hq)
        exact absurd h (hq q)
    | error other =>
      constructor
      · intro hs
        have he : fault = .field text .state := by simpa [stateField, h] using hs.symm
        subst he
        exact .text (by simp [h])
      · rintro ⟨⟩
        simp [stateField, h]

theorem symbolField_eq_error_iff : symbolField read f = .error fault ↔ NoSymbol read f fault := by
  cases f with
  | none =>
    constructor
    · intro h
      cases h
    · rintro ⟨⟩
  | some text =>
    cases h : read text with
    | ok a =>
      constructor
      · intro hs
        simp [symbolField, h] at hs
      · rintro ⟨ha⟩
        exact absurd h (ha a)
    | error other =>
      constructor
      · intro hs
        have he : fault = .field text .symbol := by simpa [symbolField, h] using hs.symm
        subst he
        exact .text (by simp [h])
      · rintro ⟨⟩
        simp [symbolField, h]

theorem moveField_eq_error_iff : moveField f = .error fault ↔ NoMove f fault := by
  cases f with
  | none =>
    constructor
    · intro h
      cases h
      exact .absent
    · rintro ⟨⟩
      rfl
  | some text =>
    cases h : Move.read? text with
    | some d =>
      constructor
      · intro hs
        simp [moveField, h] at hs
      · rintro (_ | hd)
        rw [h] at hd
        cases hd
    | none =>
      constructor
      · intro hs
        have he : fault = .field text .move := by simpa [moveField, h] using hs.symm
        subst he
        exact .text h
      · rintro ⟨⟩
        simp [moveField, h]

theorem namesState_iff : NamesState f ↔ ∃ q, stateField f = .ok q := by
  simp only [stateField_eq_ok_iff]
  exact exists_comm

theorem namesSymbol_iff : NamesSymbol read f ↔ ∃ a, symbolField read f = .ok a := by
  simp only [symbolField_eq_ok_iff]
  exact Iff.rfl

/-! ### Faults of clauses -/

theorem read_rule_eq_error_iff {state symbol newState newSymbol move : Field} :
    Clause.read read [state, symbol] [newState, newSymbol, move] = .error fault ↔
      NoClause read [state, symbol] [newState, newSymbol, move] fault := by
  simp only [Clause.read, bind_eq_error_iff, stateField_eq_error_iff, symbolField_eq_error_iff,
    moveField_eq_error_iff]
  constructor
  · rintro (h | ⟨q, hq, h | ⟨x, hx, h | ⟨r, hr, h | ⟨y, hy, h | ⟨d, _, h⟩⟩⟩⟩⟩)
    · exact .state h
    · exact .symbol (namesState_iff.2 ⟨q, hq⟩) h
    · exact .newState (namesState_iff.2 ⟨q, hq⟩) (namesSymbol_iff.2 ⟨x, hx⟩) h
    · exact .newSymbol (namesState_iff.2 ⟨q, hq⟩) (namesSymbol_iff.2 ⟨x, hx⟩)
        (namesState_iff.2 ⟨r, hr⟩) h
    · exact .move (namesState_iff.2 ⟨q, hq⟩) (namesSymbol_iff.2 ⟨x, hx⟩)
        (namesState_iff.2 ⟨r, hr⟩) (namesSymbol_iff.2 ⟨y, hy⟩) h
    · cases h
  · intro h
    cases h with
    | state h => exact .inl h
    | symbol hq h =>
      obtain ⟨q, hq⟩ := namesState_iff.1 hq
      exact .inr ⟨q, hq, .inl h⟩
    | newState hq hx h =>
      obtain ⟨q, hq⟩ := namesState_iff.1 hq
      obtain ⟨x, hx⟩ := namesSymbol_iff.1 hx
      exact .inr ⟨q, hq, .inr ⟨x, hx, .inl h⟩⟩
    | newSymbol hq hx hr h =>
      obtain ⟨q, hq⟩ := namesState_iff.1 hq
      obtain ⟨x, hx⟩ := namesSymbol_iff.1 hx
      obtain ⟨r, hr⟩ := namesState_iff.1 hr
      exact .inr ⟨q, hq, .inr ⟨x, hx, .inr ⟨r, hr, .inl h⟩⟩⟩
    | move hq hx hr hy h =>
      obtain ⟨q, hq⟩ := namesState_iff.1 hq
      obtain ⟨x, hx⟩ := namesSymbol_iff.1 hx
      obtain ⟨r, hr⟩ := namesState_iff.1 hr
      obtain ⟨y, hy⟩ := namesSymbol_iff.1 hy
      exact .inr ⟨q, hq, .inr ⟨x, hx, .inr ⟨r, hr, .inr ⟨y, hy, .inl h⟩⟩⟩⟩
    | arity _ h => exact absurd ⟨rfl, rfl⟩ h

theorem read_eq_error_iff :
    Clause.read read cause effect = .error fault ↔ NoClause read cause effect fault := by
  fun_cases Clause.read read cause effect with
  | case1 =>
    constructor
    · intro h
      cases h
      exact .startAbsent
    · intro h
      cases h with
      | startAbsent => rfl
      | arity h => exact absurd ⟨rfl, rfl⟩ h
  | case2 text =>
    constructor
    · intro h
      exact .start (stateField_eq_error_iff.1 (map_eq_error_iff.1 h))
    · intro h
      cases h with
      | start h => exact map_eq_error_iff.2 (stateField_eq_error_iff.2 h)
      | arity h => exact absurd ⟨rfl, rfl⟩ h
  | case3 state symbol newState newSymbol move => exact read_rule_eq_error_iff
  | case4 cause effect hn hs hr =>
    constructor
    · intro h
      cases h
      refine .arity ?_ ?_
      · rintro ⟨hc, he⟩
        rw [List.length_eq_zero_iff] at hc
        obtain ⟨_ | text, rfl⟩ := List.length_eq_one_iff.1 he
        · exact hn hc rfl
        · exact hs text hc rfl
      · rintro ⟨hc, he⟩
        obtain ⟨q, x, rfl⟩ := List.length_eq_two.1 hc
        obtain ⟨r, y, d, rfl⟩ := List.length_eq_three.1 he
        exact hr q x r y d rfl rfl
    · intro h
      cases h with
      | startAbsent => exact (hn rfl rfl).elim
      | start _ => exact (hs _ rfl rfl).elim
      | arity => rfl
      | _ => exact (hr _ _ _ _ _ rfl rfl).elim

theorem NoClause.unique {other : SourceFault} (h : NoClause read cause effect fault)
    (h' : NoClause read cause effect other) : fault = other := by
  have he := (read_eq_error_iff.2 h).symm.trans (read_eq_error_iff.2 h')
  exact Except.error.inj he

theorem NoClause.not_isClause {c : Clause} (h : NoClause read cause effect fault) :
    ¬ IsClause read cause effect c := by
  intro hc
  have hr := read_eq_error_iff.2 h
  rw [hc.read_eq] at hr
  cases hr

/-! ### Faults of groups -/

theorem isClauseGroup_iff : IsClauseGroup read group ↔ ∃ cause effect c,
    group = [.group cause, .arrow, .group effect] ∧ IsClause read cause effect c := by
  constructor
  · rintro ⟨c, h⟩
    cases h with
    | cons hc h =>
      cases h
      exact ⟨_, _, c, rfl, hc⟩
  · rintro ⟨cause, effect, c, rfl, hc⟩
    exact ⟨c, .cons hc .nil⟩

theorem Faulty.unique {other : SourceFault} (h : Faulty read group fault)
    (h' : Faulty read group other) : fault = other := by
  cases h with
  | fields h =>
    cases h' with
    | fields h' => exact h.unique h'
  | _ =>
    cases h'
    rfl

theorem Faulty.not_isClauseGroup (h : Faulty read group fault) : ¬ IsClauseGroup read group := by
  rw [isClauseGroup_iff]
  rintro ⟨cause, effect, c, rfl, hc⟩
  cases h with
  | fields h => exact h.not_isClause hc

theorem error_eq_iff_of_faulty {p : Prop} {first : SourceFault} (h : Faulty read group first) :
    (.error first : Except SourceFault (List Clause)) = .error fault ↔
      Faulty read group fault ∨ IsClauseGroup read group ∧ p := by
  constructor
  · intro he
    cases he
    exact .inl h
  · rintro (h' | ⟨hc, _⟩)
    · rw [h.unique h']
    · exact absurd hc h.not_isClauseGroup

/-- **The first group is faulty, or it is a clause and there is a fault behind it.** -/
theorem readAll_eq_error_iff_take :
    Clause.readAll read tokens = .error fault ↔
      Faulty read (tokens.take 3) fault ∨
        IsClauseGroup read (tokens.take 3) ∧
          Clause.readAll read (tokens.drop 3) = .error fault := by
  fun_cases Clause.readAll read tokens with
  | case1 =>
    constructor
    · intro h
      cases h
    · rintro (h | ⟨h, -⟩)
      · cases h
      · obtain ⟨_, _, _, he, _⟩ := isClauseGroup_iff.1 h
        cases he
  | case2 others => exact error_eq_iff_of_faulty .first
  | case3 cause => exact error_eq_iff_of_faulty .single
  | case4 cause other others => exact error_eq_iff_of_faulty .second
  | case5 cause => exact error_eq_iff_of_faulty .pair
  | case6 cause others => exact error_eq_iff_of_faulty .third
  | case7 cause effect others =>
    cases hr : Clause.read read cause effect with
    | error first => exact error_eq_iff_of_faulty (.fields (read_eq_error_iff.1 hr))
    | ok c =>
      have hc : IsClauseGroup read [.group cause, .arrow, .group effect] :=
        isClauseGroup_iff.2 ⟨cause, effect, c, rfl, isClause_of_read hr⟩
      constructor
      · intro h
        rcases bind_eq_error_iff.1 h with h | ⟨_, -, h⟩
        · cases h
        rcases bind_eq_error_iff.1 h with h | ⟨_, -, h⟩
        · exact .inr ⟨hc, h⟩
        · cases h
      · rintro (h | ⟨-, h⟩)
        · exact absurd hc h.not_isClauseGroup
        · exact bind_eq_error_iff.2 (.inr ⟨c, rfl, bind_eq_error_iff.2 (.inl h)⟩)

theorem exists_faulty (hne : group ≠ []) (hlen : group.length ≤ 3)
    (h : ¬ IsClauseGroup read group) : ∃ fault, Faulty read group fault := by
  cases hr : Clause.readAll read group with
  | error fault =>
    rw [readAll_eq_error_iff_take, List.take_of_length_le hlen] at hr
    rcases hr with hf | ⟨hc, _⟩
    · exact ⟨fault, hf⟩
    · exact absurd hc h
  | ok clauses =>
    cases readAll_eq_ok_iff.1 hr with
    | nil => exact absurd rfl hne
    | @cons _ _ c others _ hc hrest =>
      have ho : others = [] := by
        apply List.eq_nil_of_length_eq_zero
        simp only [List.length_cons] at hlen
        omega
      subst ho
      exact absurd ⟨c, .cons hc .nil⟩ h

/-- **A group is a clause or it has a fault**, and then only one. -/
theorem not_isClauseGroup_iff (hne : group ≠ []) (hlen : group.length ≤ 3) :
    ¬ IsClauseGroup read group ↔ ∃! fault, Faulty read group fault := by
  constructor
  · intro h
    obtain ⟨fault, hf⟩ := exists_faulty hne hlen h
    exact ⟨fault, hf, fun _ hf' => hf'.unique hf⟩
  · rintro ⟨fault, hf, -⟩
    exact hf.not_isClauseGroup

/-! ### Faults of tokens -/

theorem groupAt_succ (n : ℕ) : groupAt tokens (n + 1) = groupAt (tokens.drop 3) n := by
  rw [groupAt, groupAt, List.drop_drop, Nat.mul_succ, Nat.add_comm]

/-- The tokens have the fault of the first group that is no clause.  The induction is on the number
of tokens; one group is taken off at a time. -/
theorem readAll_eq_error_iff : Clause.readAll read tokens = .error fault ↔
    ∃ n, (∀ k < n, IsClauseGroup read (groupAt tokens k)) ∧
      Faulty read (groupAt tokens n) fault := by
  constructor
  · intro h
    induction hl : tokens.length using Nat.strong_induction_on generalizing tokens with
    | _ l ih =>
      subst hl
      rcases readAll_eq_error_iff_take.1 h with hf | ⟨hc, h⟩
      · exact ⟨0, by simp, hf⟩
      · have hlt : (tokens.drop 3).length < tokens.length := by
          have hne : tokens ≠ [] := by
            rintro rfl
            cases h
          have hpos := List.length_pos_of_ne_nil hne
          rw [List.length_drop]
          omega
        obtain ⟨n, hbefore, hf⟩ := ih _ hlt h rfl
        refine ⟨n + 1, ?_, by rwa [groupAt_succ]⟩
        intro k hk
        cases k with
        | zero => exact hc
        | succ k =>
          rw [groupAt_succ]
          exact hbefore k (by omega)
  · rintro ⟨n, hbefore, hf⟩
    induction n generalizing tokens with
    | zero => exact readAll_eq_error_iff_take.2 (.inl hf)
    | succ n ih =>
      refine readAll_eq_error_iff_take.2 (.inr ⟨hbefore 0 (by omega), ?_⟩)
      refine ih ?_ (by rwa [← groupAt_succ])
      intro k hk
      rw [← groupAt_succ]
      exact hbefore (k + 1) (by omega)

end Reading

/-- **The first group that is no clause decides the fault.**  The fault is the one that this group
has by itself, and it has just one.  It is the fault of the tokens for each kind that reads symbols
in this way.  A source has it only if there is no fault in scanning: those come first. -/
theorem ofTokens_eq_error_iff (read : SymbolReader) (tokens : List Token) :
    (∀ fault, Machine.ofTokens read tokens = .error fault ↔
      ∃ n, (∀ k < n, IsClauseGroup read (groupAt tokens k)) ∧
        Faulty read (groupAt tokens n) fault) ∧
    (∀ n, groupAt tokens n ≠ [] → (¬ IsClauseGroup read (groupAt tokens n) ↔
      ∃! fault, Faulty read (groupAt tokens n) fault)) ∧
    (∀ spec : KindSpec, spec.resolve = .ok read →
      spec.machineOfTokens tokens = inSource (Machine.ofTokens read tokens)) ∧
    (∀ (spec : KindSpec) (source : String),
      (∀ fault, Token.scan source.toList = .error fault →
        spec.machineOfSource source = .error (.source (.scan fault))) ∧
      (Token.scan source.toList = .ok tokens →
        spec.machineOfSource source = spec.machineOfTokens tokens)) := by
  refine ⟨?_, ?_, ?_, ?_⟩
  · intro fault
    rw [Machine.ofTokens, map_eq_error_iff, readAll_eq_error_iff]
  · intro n hne
    exact not_isClauseGroup_iff hne (List.length_take_le 3 _)
  · intro spec hs
    exact KindSpec.machineOfTokens_of_resolve hs tokens
  · intro spec source
    constructor
    · intro fault h
      rw [KindSpec.machineOfSource, scanSource, h]
      rfl
    · intro h
      rw [KindSpec.machineOfSource, scanSource, h]
      rfl

/-- Of the second clause the symbol is wrong, and so are the fields after it and the tokens behind
it. -/
theorem ofTokens_first_fault :
    Machine.ofTokens SymbolKind.truth.read
        [.group [], .arrow, .group [some "7"],
          .group [some "0", some "x"], .arrow, .group [some "y", some "true", none], .arrow] =
      .error (.field "x" .symbol) ∧
    (KindSpec.named (.str "bool")).machineOfTokens
        [.group [], .arrow, .group [some "7"],
          .group [some "0", some "x"], .arrow, .group [some "y", some "true", none], .arrow] =
      .error (.source (.field "x" .symbol)) := by
  have hseven : readState "7" = .ok (.number 7) := by decide +kernel
  have hfirst : IsClauseGroup SymbolKind.truth.read [.group [], .arrow, .group [some "7"]] :=
    isClauseGroup_iff.2 ⟨_, _, _, rfl, .start hseven⟩
  have hsecond : Faulty SymbolKind.truth.read
      [.group [some "0", some "x"], .arrow, .group [some "y", some "true", none]]
      (.field "x" .symbol) := by
    refine .fields (.symbol ⟨_, .number 0, rfl, by decide +kernel⟩ (.text ?_))
    intro a
    simp [SymbolKind.read]
  obtain ⟨hfault, -, hspec, -⟩ := ofTokens_eq_error_iff SymbolKind.truth.read
    [.group [], .arrow, .group [some "7"],
      .group [some "0", some "x"], .arrow, .group [some "y", some "true", none], .arrow]
  have he := (hfault (.field "x" .symbol)).2 ⟨1, by
    intro k hk
    obtain rfl : k = 0 := by omega
    exact hfirst, hsecond⟩
  refine ⟨he, ?_⟩
  rw [hspec (.named (.str "bool")) rfl, he]
  rfl

end TapeMachine
