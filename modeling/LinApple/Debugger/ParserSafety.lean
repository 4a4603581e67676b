import LinApple.Debugger.Cook

/-!
# The safety of the console's parser

A round of the second pass goes wrong in four places: at an operator with a `#` behind it as the
last argument there is room for, at a `!` before such a `#`, at a remainder by zero, and at the
word at $FFFF. Apart from these the rounds come to an end, since each leaves fewer arguments or
goes to the next one.

Reading outside an array has no meaning that could be modelled, so the two passes have three
outcomes: they return, they do something wrong, or they are not finished in the rounds they were
given. The arrays and the line keep their bounds in the model, every read and write is tested
against them, and a division is tested for zero; where a test fails the outcome is `wrong`, and
nothing that happens after it is told.

Both passes are loops that jump about. The first moves a pointer along the line by what it finds,
the second shifts arguments while it runs over them. Each is given as rounds on an explicit state,
and a general lemma says when such a loop returns: if and only if every state it reaches is one
whose round goes right (`Round.Reaches`). This is why the conditions can be stated on the state
before a round, in terms of what the round would look at, and need not follow the loop themselves.
They are clauses of `GetState.Fits` and `CookInput.Fits`, one for each way a round can go wrong.

That the passes end is proved apart from it, for all inputs, with a measure that each round makes
smaller. Shifting takes an argument away, and what does not shift moves on. The arguments of the
second pass are arbitrary, and not only those the first one leaves.
-/

namespace LinApple.Debugger

/-! ## Where a round goes wrong -/

section Fits

variable (input : CookInput)

/-- **An operator that is folded** reads an argument there is, and does not divide by zero. -/
def CookInput.FoldFits (s : CookState) (p : Nat) (value : UInt16) : Prop :=
  ((s.args (p + 1)).token = .hash → p + 2 < maxArgs)
    ∧ ((s.args p).token = .percent → input.rightSide s.args p value ≠ some 0)

/-- A `(` does not read the word at $FFFF. -/
def CookInput.ParenFits (s : CookState) (p : Nat) (nArgsLeft : Int) (nAddressVal : UInt16) :
    Prop :=
  (s.args p).token = .parenL → 2 ≤ nArgsLeft →
    (argShift s.args (s.iArg + 1) input.nArgs s.iArg (s.iArg + 1)).token = .parenR →
      nAddressVal ≠ 0xFFFF

/-- **An operator that is not folded** reads an argument there is, and a word there is. -/
def CookInput.UnaryFits (s : CookState) (p : Nat) (nArgsLeft : Int) (nAddressVal : UInt16) :
    Prop :=
  ((s.args p).token = .exclamation → (s.args (p + 1)).token = .hash → p + 2 < maxArgs)
    ∧ input.ParenFits s p nArgsLeft nAddressVal

/-- **An operator with an argument behind it.** -/
def CookInput.BinaryFits (s : CookState) (p : Nat) : Prop :=
  let next := s.args (p + 1)
  let value := argsGetValue 16 next
  let symbol := input.symbol next.text
  let u := s.marked p symbol.isSome
  let token := (u.args p).token
  ¬ (token = .fslash ∧ next.token = .fslash) →
    (token.isFolded → input.FoldFits u p value)
      ∧ (¬ token.isFolded → token ≠ .equal →
        input.UnaryFits (if token = .at then cookAt input u p value else u) p (s.nArg - s.iArg)
          (symbol.getD value))

/-- An argument that is looked at. -/
def CookInput.ArgFits (s : CookState) (p : Nat) : Prop :=
  (s.args p).type.operator → s.iArg < s.nArg → ¬ ((s.args p).token = .star ∧ s.nArg = 1) →
    input.BinaryFits s p

/-- **The state before a round.** A round looks at the argument it is at and at those next to it,
and one that is a `$` is taken out first, which is why the two cases ask about different states. -/
def CookInput.Fits (s : CookState) : Prop :=
  s.iArg ≤ s.nArg →
    if (s.args s.iArg).token = .dollar then
      s.iArg < s.nArg → input.ArgFits (s.dollar input.nArgs) s.iArg
    else input.ArgFits s s.iArg

end Fits

/-! ## Rounds -/

section Rounds

variable {input : CookInput} {s s' : CookState} {p : Nat}

theorem cookParenR_ne_wrong : cookParenR input s p ≠ .wrong := by
  unfold cookParenR
  by_cases hparen : (s.args p).token = .parenR
  · rw [if_pos hparen]
    dsimp only
    split <;> exact nofun
  · rw [if_neg hparen]
    exact nofun

/-- **A `(` goes wrong at the word at $FFFF.** -/
theorem cookParenL_eq_wrong_iff (hi : s.iArg + 1 < maxArgs) (nArgsLeft : Int)
    (nAddressVal : UInt16) :
    cookParenL input s p nArgsLeft nAddressVal = .wrong
      ↔ ¬ input.ParenFits s p nArgsLeft nAddressVal := by
  unfold cookParenL CookInput.ParenFits
  by_cases hparen : (s.args p).token = .parenL
  · rw [if_pos hparen, forall_prop_of_true hparen]
    dsimp only
    by_cases hleft : 2 ≤ nArgsLeft
    · rw [if_neg (not_not.2 hleft), if_neg (not_not.2 hi), forall_prop_of_true hleft]
      by_cases hclose : (argShift s.args (s.iArg + 1) input.nArgs s.iArg (s.iArg + 1)).token
          = .parenR
      · rw [if_pos hclose, forall_prop_of_true hclose]
        by_cases haddress : nAddressVal = 0xFFFF
        · rw [if_pos haddress]
          exact iff_of_true rfl (not_not.2 haddress)
        · rw [if_neg haddress]
          exact iff_of_false cookParenR_ne_wrong (not_not.2 haddress)
      · rw [if_neg hclose]
        exact iff_of_false nofun (not_not.2 fun h => absurd h hclose)
    · rw [if_pos hleft]
      exact iff_of_false cookParenR_ne_wrong (not_not.2 fun h => absurd h hleft)
  · rw [if_neg hparen]
    exact iff_of_false cookParenR_ne_wrong (not_not.2 fun h => absurd h hparen)

/-- There is no right side where the number behind a `#` is behind the last argument. -/
theorem rightSide_eq_none_iff {args : Nat → ConsoleArg} {otherwise : UInt16} :
    input.rightSide args p otherwise = none
      ↔ ¬ ((args (p + 1)).token = .hash → p + 2 < maxArgs) := by
  unfold CookInput.rightSide
  by_cases hhash : (args (p + 1)).token = .hash
  · rw [if_pos hhash, forall_prop_of_true hhash]
    by_cases hp : p + 2 < maxArgs
    · rw [if_pos hp]
      exact iff_of_false nofun (not_not.2 hp)
    · rw [if_neg hp]
      exact iff_of_true rfl hp
  · rw [if_neg hhash]
    exact iff_of_false nofun (not_not.2 fun h => absurd h hhash)

theorem fits_of_rightSide {args : Nat → ConsoleArg} {otherwise rhs : UInt16}
    (h : input.rightSide args p otherwise = some rhs) :
    (args (p + 1)).token = .hash → p + 2 < maxArgs := by
  by_contra hnot
  exact nomatch h.symm.trans (rightSide_eq_none_iff.2 hnot)

/-- **An operator that is not folded goes wrong just where it does not fit.** -/
theorem cookUnary_eq_wrong_iff (hi : s.iArg + 1 < maxArgs) (nArgsLeft : Int)
    (rhs nAddressVal : UInt16) :
    cookUnary input s p nArgsLeft rhs nAddressVal = .wrong
      ↔ ¬ input.UnaryFits s p nArgsLeft nAddressVal := by
  unfold cookUnary CookInput.UnaryFits
  split
  · rename_i htoken
    unfold CookInput.ParenFits
    rw [htoken]
    exact iff_of_false nofun (not_not.2 ⟨nofun, nofun⟩)
  · rename_i htoken
    unfold CookInput.ParenFits
    rw [htoken, forall_prop_of_true rfl, and_iff_left nofun]
    cases hrhs : input.rightSide s.args p nAddressVal with
    | none => exact iff_of_true rfl (rightSide_eq_none_iff.1 hrhs)
    | some rhs => exact iff_of_false nofun (not_not.2 (fits_of_rightSide hrhs))
  · rename_i hhash hexcl
    rw [cookParenL_eq_wrong_iff hi, and_iff_right fun h => absurd h hexcl]

/-- Two values are folded unless the remainder is by zero. -/
theorem foldValue_eq_none_iff {token : Token} {lhs rhs : UInt16} :
    foldValue token lhs rhs = none ↔ token = .percent ∧ rhs = 0 := by
  cases token
  case percent =>
    rw [foldValue, and_iff_right rfl]
    by_cases hzero : rhs = 0
    · rw [if_pos hzero]
      exact iff_of_true rfl hzero
    · rw [if_neg hzero]
      exact iff_of_false nofun hzero
  all_goals exact iff_of_false nofun nofun

/-- **An operator with an argument behind it goes wrong just where it does not fit.** -/
theorem cookBinary_eq_wrong_iff (hp : 1 ≤ p ∧ p + 1 < maxArgs) (hi : s.iArg + 1 < maxArgs) :
    cookBinary input s p = .wrong ↔ ¬ input.BinaryFits s p := by
  unfold cookBinary CookInput.BinaryFits
  dsimp only
  generalize hu : s.marked p (input.symbol (s.args (p + 1)).text).isSome = u
  have hui : u.iArg = s.iArg := hu ▸ rfl
  rw [if_neg (not_not.2 hp)]
  by_cases hcomment : (u.args p).token = .fslash ∧ (s.args (p + 1)).token = .fslash
  · rw [if_pos hcomment]
    exact iff_of_false nofun (not_not.2 fun h => absurd hcomment h)
  rw [if_neg hcomment, forall_prop_of_true hcomment]
  by_cases hfold : (u.args p).token.isFolded
  · rw [if_pos hfold, forall_prop_of_true hfold, and_iff_left fun h => absurd hfold h]
    unfold CookInput.FoldFits
    cases hrhs : input.rightSide u.args p (argsGetValue 16 (s.args (p + 1))) with
    | none =>
      refine iff_of_true rfl fun h => ?_
      exact rightSide_eq_none_iff.1 hrhs h.1
    | some rhs =>
      rw [and_iff_right (fits_of_rightSide hrhs)]
      dsimp only
      cases hresult : foldValue (u.args p).token (u.args (p - 1)).value rhs with
      | none =>
        obtain ⟨htoken, rfl⟩ := foldValue_eq_none_iff.1 hresult
        exact iff_of_true rfl fun h => h htoken rfl
      | some result =>
        refine iff_of_false nofun (not_not.2 fun htoken hzero => ?_)
        exact nomatch hresult.symm.trans
          (foldValue_eq_none_iff.2 ⟨htoken, Option.some.inj hzero⟩)
  · rw [if_neg hfold, forall_prop_of_true hfold, and_iff_right fun h => absurd h hfold]
    by_cases hequal : (u.args p).token = .equal
    · rw [if_pos hequal]
      exact iff_of_false nofun (not_not.2 fun h => absurd hequal h)
    · rw [if_neg hequal, forall_prop_of_true hequal]
      refine cookUnary_eq_wrong_iff ?_ _ _ _
      split
      · exact hui.symm ▸ hi
      · exact hui.symm ▸ hi

/-- **A round at an argument goes wrong just where it does not fit.** -/
theorem cookArg_eq_wrong_iff (hp : 1 ≤ p ∧ (s.iArg < s.nArg → p + 1 < maxArgs))
    (hi : s.iArg ≤ p) : cookArg input s p = .wrong ↔ ¬ input.ArgFits s p := by
  unfold cookArg CookInput.ArgFits cookOperator
  by_cases hoperator : (s.args p).type.operator
  · rw [if_pos hoperator, forall_prop_of_true hoperator]
    dsimp only
    by_cases hleft : s.iArg < s.nArg
    · have hbehind := hp.2 hleft
      rw [if_neg (by omega), forall_prop_of_true hleft]
      by_cases hstar : (s.args p).token = .star ∧ s.nArg = 1
      · rw [if_pos hstar]
        exact iff_of_false nofun (not_not.2 fun h => absurd hstar h)
      · rw [if_neg hstar, if_pos (by omega), forall_prop_of_true hstar]
        exact cookBinary_eq_wrong_iff ⟨hp.1, hbehind⟩ (by omega)
    · refine iff_of_false ?_ (not_not.2 fun h => absurd h hleft)
      split
      · exact nofun
      · split
        · exact nofun
        · rw [if_neg (by omega)]
          exact nofun
  · rw [if_neg hoperator]
    exact iff_of_false nofun (not_not.2 fun h => absurd h hoperator)

/-! ## What every round keeps -/

/-- The loop has not passed more arguments than there are. -/
structure CookInput.Bounded (input : CookInput) (s : CookState) : Prop where
  nArg : s.nArg ≤ input.nArgs
  one_le : 1 ≤ s.iArg
  iArg : s.iArg ≤ maxArgs + 1

/-- **A round goes wrong just where the state before it does not fit.** -/
theorem cookRound_eq_wrong_iff (h : input.Bounded s) :
    cookRound input s = .wrong ↔ ¬ input.Fits s := by
  have hn := h.nArg
  have hi := h.one_le
  have hlt := input.nArgs_lt
  unfold cookRound CookInput.Fits
  by_cases hend : s.nArg < s.iArg
  · rw [if_pos hend]
    exact iff_of_false nofun (not_not.2 fun h => absurd h (by omega))
  rw [if_neg hend, forall_prop_of_true (by omega), if_neg (by omega)]
  by_cases hdollar : (s.args s.iArg).token = .dollar
  · rw [if_pos hdollar, if_pos hdollar]
    by_cases hleft : s.iArg < s.nArg
    · rw [if_pos (by omega), forall_prop_of_true hleft]
      exact cookArg_eq_wrong_iff ⟨hi, fun _ => by omega⟩ (Nat.sub_le _ _)
    · rw [if_neg (by omega)]
      exact iff_of_false nofun (not_not.2 fun h => absurd h hleft)
  · rw [if_neg hdollar, if_neg hdollar]
    exact cookArg_eq_wrong_iff ⟨hi, fun _ => by omega⟩ (Nat.le_refl _)

/-- **What a round leaves**: fewer arguments, or as many and the next one. -/
structure CookState.Advances (n : Nat) (s s' : CookState) : Prop where
  one_le : 1 ≤ s'.iArg
  iArg : s'.iArg ≤ s.iArg + n
  nArg : s'.nArg < s.nArg ∨ s'.nArg = s.nArg ∧ s'.iArg = s.iArg + 1

/-- From a state with fewer arguments. -/
theorem CookState.Advances.of_less {m n : Nat} {t : CookState} (h : t.Advances m s')
    (hi : t.iArg + m ≤ s.iArg + n) (hn : t.nArg < s.nArg) : s.Advances n s' where
  one_le := h.one_le
  iArg := h.iArg.trans hi
  nArg := by
    rcases h.nArg with hless | ⟨heq, -⟩
    · exact .inl (Int.lt_trans hless hn)
    · exact .inl (heq ▸ hn)

/-- A fold takes arguments out. -/
theorem advances_folded (s : CookState) (nArgs : Nat) {nParamLen : Nat} (h : 0 < nParamLen) :
    s.Advances 1 (s.folded nArgs nParamLen) where
  one_le := Nat.le_refl 1
  iArg := Nat.le_add_left 1 _
  nArg := by
    dsimp only [CookState.folded]
    omega

/-- Going to the next argument. -/
theorem advances_succ (args : Nat → ConsoleArg) (l r : Nat) :
    s.Advances 1 ⟨args, s.nArg, s.iArg + 1, l, r⟩ :=
  ⟨Nat.le_add_left 1 _, Nat.le_refl _, .inr ⟨rfl, rfl⟩⟩

theorem CookState.Advances.mono {m n : Nat} (h : s.Advances m s') (hm : m ≤ n) :
    s.Advances n s' :=
  ⟨h.one_le, h.iArg.trans (Nat.add_le_add_left hm _), h.nArg⟩

theorem advances_of_cookParenR (h : cookParenR input s p = .next s') : s.Advances 1 s' := by
  unfold cookParenR at h
  by_cases hparen : (s.args p).token = .parenR
  · rw [if_pos hparen] at h
    dsimp only at h
    split at h
    · cases h
      have hfold := advances_folded s input.nArgs Nat.one_pos
      exact ⟨hfold.one_le, hfold.iArg, hfold.nArg⟩
    · cases h
  · rw [if_neg hparen] at h
    cases h
    exact advances_succ s.args s.nParenL s.nParenR

theorem advances_of_cookParenL {nArgsLeft : Int} {nAddressVal : UInt16}
    (h : cookParenL input s p nArgsLeft nAddressVal = .next s') : s.Advances 2 s' := by
  unfold cookParenL at h
  by_cases hparen : (s.args p).token = .parenL
  · rw [if_pos hparen] at h
    dsimp only at h
    split at h
    · have hnext := advances_of_cookParenR h
      exact ⟨hnext.one_le, hnext.iArg.trans (Nat.le_succ _), hnext.nArg⟩
    split at h
    · cases h
    split at h
    · split at h
      · cases h
      · exact (advances_of_cookParenR h).of_less (Nat.le_refl _) (by dsimp only; omega)
    · cases h
  · rw [if_neg hparen] at h
    exact (advances_of_cookParenR h).mono (Nat.le_succ 1)

theorem advances_of_cookUnary {nArgsLeft : Int} {rhs nAddressVal : UInt16}
    (h : cookUnary input s p nArgsLeft rhs nAddressVal = .next s') : s.Advances 2 s' := by
  unfold cookUnary at h
  split at h
  · cases h
    exact (advances_succ _ _ _).mono (Nat.le_succ 1)
  · split at h
    · cases h
    · cases h
      exact (advances_succ _ _ _).mono (Nat.le_succ 1)
  · exact advances_of_cookParenL h

theorem advances_of_cookBinary (h : cookBinary input s p = .next s') : s.Advances 2 s' := by
  unfold cookBinary at h
  dsimp only at h
  split at h
  · cases h
  split at h
  · cases h
  split at h
  · split at h
    · cases h
    · split at h
      · cases h
      · cases h
        have hfold := advances_folded s input.nArgs Nat.two_pos
        exact ⟨hfold.one_le, hfold.iArg.trans (Nat.le_succ _), hfold.nArg⟩
  split at h
  · cases h
    exact (advances_succ _ _ _).mono (Nat.le_succ 1)
  · have hnext := advances_of_cookUnary h
    split at hnext
    · exact hnext.of_less (Nat.le_refl _) (by dsimp only [cookAt, CookState.marked]; omega)
    · exact ⟨hnext.one_le, hnext.iArg, hnext.nArg⟩

theorem advances_of_cookArg (h : cookArg input s p = .next s') : s.Advances 2 s' := by
  unfold cookArg cookOperator at h
  split at h
  · dsimp only at h
    split at h
    · cases h
    split at h
    · cases h
      exact (advances_succ _ _ _).mono (Nat.le_succ 1)
    split at h
    · exact advances_of_cookBinary h
    · cases h
  · cases h
    exact (advances_succ _ _ _).mono (Nat.le_succ 1)

/-- **Every round leaves fewer arguments, or goes to the next one.** -/
theorem advances_of_cookRound (h : cookRound input s = .next s') (hi : 1 ≤ s.iArg) :
    s.Advances 2 s' ∧ s.iArg ≤ s.nArg ∧ s.iArg < maxArgs := by
  unfold cookRound at h
  by_cases hend : s.nArg < s.iArg
  · rw [if_pos hend] at h
    cases h
  by_cases hmax : s.iArg < maxArgs
  · rw [if_neg hend, if_neg (not_not.2 hmax)] at h
    refine ⟨?_, by omega, hmax⟩
    split at h
    · split at h
      · exact (advances_of_cookArg h).of_less (by dsimp only [CookState.dollar]; omega)
          (by dsimp only [CookState.dollar]; omega)
      · cases h
    · exact advances_of_cookArg h
  · rw [if_neg hend, if_pos hmax] at h
    cases h

theorem CookInput.Bounded.next (hs : input.Bounded s) (h : cookRound input s = .next s') :
    input.Bounded s' := by
  obtain ⟨hnext, -, hi⟩ := advances_of_cookRound h hs.one_le
  have hn := hs.nArg
  refine ⟨?_, hnext.one_le, by have := hnext.iArg; omega⟩
  rcases hnext.nArg with hless | ⟨heq, -⟩
  · exact Int.le_trans (Int.le_of_lt hless) hn
  · exact heq.symm ▸ hn

/-- The arguments that are left, and those up to the last there is room for. -/
def CookState.measure (s : CookState) : Nat :=
  (maxArgs + 2) * s.nArg.toNat + (maxArgs + 2 - s.iArg)

/-- **The measure goes down in every round.** -/
theorem measure_lt (hs : input.Bounded s) (h : cookRound input s = .next s') :
    s'.measure < s.measure := by
  obtain ⟨hnext, hle, hi⟩ := advances_of_cookRound h hs.one_le
  have hs' := (hs.next h).one_le
  have hbound := hs.one_le
  unfold CookState.measure maxArgs at *
  rcases hnext.nArg with hless | ⟨heq, hsucc⟩
  · omega
  · rw [heq, hsucc]
    omega

end Rounds

/-! ## The two passes -/

/-- So many rounds are enough for all arguments there is room for. -/
def cookRounds : Nat := (maxArgs + 2) * maxArgs

/-- The state before the first round. -/
def CookInput.start (input : CookInput) (args : Nat → ConsoleArg) : CookState :=
  ⟨args, input.nArgs, 1, 0, 0⟩

theorem bounded_start (input : CookInput) (args : Nat → ConsoleArg) :
    input.Bounded (input.start args) :=
  ⟨Int.le_refl _, Nat.le_refl _, Nat.le_add_left 1 maxArgs⟩

theorem measure_start_lt (input : CookInput) (args : Nat → ConsoleArg) :
    (input.start args).measure < cookRounds := by
  have hn := input.nArgs_lt
  unfold CookState.measure CookInput.start cookRounds maxArgs at *
  dsimp only
  omega

/-- **The parser of the console is safe** if and only if the state before every round it comes to
fits: the first pass, which fills no more arguments than there are, and the second, of whatever
arguments. Both come to an end. -/
theorem parser_safety (line : List Char) (input : CookInput) (args : Nat → ConsoleArg) :
    ((∃ raw, argsGet line = .returned raw)
        ↔ ∀ t, Round.Reaches getRound ⟨line, []⟩ t → t.Fits)
      ∧ argsGet line ≠ .unfinished
      ∧ (∀ raw, argsGet line = .returned raw → raw.length ≤ maxArgs)
      ∧ ((∃ r, argsCook input cookRounds args = .returned r)
        ↔ ∀ t, Round.Reaches (cookRound input) (input.start args) t → input.Fits t)
      ∧ argsCook input cookRounds args ≠ .unfinished := by
  have hcook := Round.returned_iff CookState.measure (P := input.Bounded)
    (fun s s' => CookInput.Bounded.next) (fun s s' => measure_lt) (bounded_start input args)
    (measure_start_lt input args)
  refine ⟨argsGet_returned_iff line, ?_, fun raw => length_argsGet, hcook.trans ?_, ?_⟩
  · exact Round.run_ne_unfinished (fun s => s.rest.length) (P := fun _ => True)
      (fun _ _ _ _ => trivial) (fun _ _ _ h => (of_getRound_next h).1) trivial
      (Nat.lt_succ_self _)
  · refine forall₂_congr fun t ht => ?_
    have hbounded := ht.invariant (P := input.Bounded) (fun s s' => CookInput.Bounded.next)
      (bounded_start input args)
    rw [Ne, cookRound_eq_wrong_iff hbounded, not_not]
  · exact Round.run_ne_unfinished CookState.measure (fun s s' => CookInput.Bounded.next)
      (fun s s' => measure_lt) (bounded_start input args) (measure_start_lt input args)

/-- So many arguments without symbols, over a blank memory. -/
def CookInput.plain (nArgs : Nat) (h : nArgs < maxArgs) : CookInput where
  nArgs := nArgs
  nArgs_lt := h
  symbols := ⟨fun _ => .empty, 0⟩
  regs := ⟨0, 0, 0, 0, 0, 0x1FF, false⟩
  mem := fun _ => 0
  searchResults := []

/-- A text in an open quote is read behind its end, and a remainder by zero is taken. -/
theorem not_parser_safety : argsGet "BLOAD \"A".toList = .wrong
    ∧ ∃ args, parseInput "X 1 % 0".toList = some (3, args)
      ∧ argsCook (.plain 3 (by decide)) cookRounds args = .wrong := by
  exact ⟨by decide +kernel, _, rfl, rfl⟩

end LinApple.Debugger
