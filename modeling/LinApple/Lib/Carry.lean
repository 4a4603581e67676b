import Mathlib.Data.Nat.Digits.Lemmas

/-!
# Numbers added digit by digit

Two numbers are added from the lowest digit up, each digit with the carry of
the one before. However long they are, the digits and the last carry are those
of the sum; a difference is the sum with the complement.
-/

namespace Digits

/-- **Digits added one after the other**: the carry before them, the digits,
those of the sum, and the carry behind them. -/
inductive Carries (base : ℕ) : ℕ → List ℕ → List ℕ → List ℕ → ℕ → Prop where
  | nil (c : ℕ) : Carries base c [] [] [] c
  | cons {c c' d x y r : ℕ} {xs ys rs : List ℕ} (h : x + y + c = r + base * c')
    (rest : Carries base c' xs ys rs d) : Carries base c (x :: xs) (y :: ys) (r :: rs) d

variable {base c d : ℕ} {xs ys rs : List ℕ}

theorem Carries.length_eq (h : Carries base c xs ys rs d) :
    ys.length = xs.length ∧ rs.length = xs.length := by
  induction h with
  | nil => exact ⟨rfl, rfl⟩
  | cons _ _ ih => exact ⟨congrArg (· + 1) ih.1, congrArg (· + 1) ih.2⟩

/-- **The numbers add up.** -/
theorem Carries.sum (h : Carries base c xs ys rs d) :
    Nat.ofDigits base xs + Nat.ofDigits base ys + c
      = Nat.ofDigits base rs + base ^ xs.length * d := by
  induction h with
  | nil c => simp only [Nat.ofDigits_nil, List.length_nil, pow_zero, Nat.one_mul]
  | @cons c c' d x y r xs ys rs hdigit _ ih =>
    simp only [Nat.ofDigits_cons, List.length_cons]
    calc x + base * Nat.ofDigits base xs + (y + base * Nat.ofDigits base ys) + c
        = (x + y + c) + base * (Nat.ofDigits base xs + Nat.ofDigits base ys) := by ring
      _ = r + base * (Nat.ofDigits base xs + Nat.ofDigits base ys + c') := by
        rw [hdigit]
        ring
      _ = r + base * Nat.ofDigits base rs + base ^ (xs.length + 1) * d := by
        rw [ih]
        ring

/-- **The digits are those of the sum, and so is the carry.** -/
theorem Carries.eq (h : Carries base c xs ys rs d) (hbase : 1 < base)
    (hrs : ∀ r ∈ rs, r < base) :
    Nat.ofDigits base rs
        = (Nat.ofDigits base xs + Nat.ofDigits base ys + c) % base ^ xs.length
      ∧ d = (Nat.ofDigits base xs + Nat.ofDigits base ys + c) / base ^ xs.length := by
  have hlt : Nat.ofDigits base rs < base ^ xs.length := by
    rw [← h.length_eq.2]
    exact Nat.ofDigits_lt_base_pow_length hbase hrs
  have hpos : 0 < base ^ xs.length := Nat.pos_of_ne_zero (by positivity)
  rw [h.sum, Nat.add_mul_mod_self_left, Nat.mod_eq_of_lt hlt, Nat.add_mul_div_left _ _ hpos,
    Nat.div_eq_of_lt hlt, Nat.zero_add]
  exact ⟨rfl, rfl⟩

/-- The digits of the complement of a number. -/
def complement (base : ℕ) (ys : List ℕ) : List ℕ := ys.map (base - 1 - ·)

/-- A number and its complement. -/
theorem ofDigits_complement (hys : ∀ y ∈ ys, y < base) :
    Nat.ofDigits base (complement base ys) + Nat.ofDigits base ys + 1
      = base ^ ys.length := by
  induction ys with
  | nil => rfl
  | cons y ys ih =>
    have hy : y < base := hys y List.mem_cons_self
    have hrest := ih fun z hz => hys z (List.mem_cons_of_mem y hz)
    have hdigit : base - 1 - y + y + 1 = base := by omega
    show Nat.ofDigits base ((base - 1 - y) :: complement base ys) + _ + 1 = _
    rw [Nat.ofDigits_cons, Nat.ofDigits_cons, List.length_cons, pow_succ, ← hrest]
    calc base - 1 - y + base * Nat.ofDigits base (complement base ys)
          + (y + base * Nat.ofDigits base ys) + 1
        = (base - 1 - y + y + 1)
          + base * (Nat.ofDigits base (complement base ys) + Nat.ofDigits base ys) := by ring
      _ = (Nat.ofDigits base (complement base ys) + Nat.ofDigits base ys + 1) * base := by
        rw [hdigit]
        ring

/-- **Adding the complement subtracts**: the last carry says that nothing had to
be borrowed. -/
theorem Carries.eq_sub (h : Carries base c xs (complement base ys) rs d) (hbase : 1 < base)
    (hxs : ∀ x ∈ xs, x < base) (hys : ∀ y ∈ ys, y < base) (hrs : ∀ r ∈ rs, r < base)
    (hc : c ≤ 1) :
    Nat.ofDigits base rs
        = (Nat.ofDigits base xs + base ^ xs.length - (Nat.ofDigits base ys + (1 - c)))
          % base ^ xs.length
      ∧ d = if Nat.ofDigits base ys + (1 - c) ≤ Nat.ofDigits base xs then 1 else 0 := by
  have hlength : ys.length = xs.length := by
    rw [← h.length_eq.1]
    exact (List.length_map _).symm
  have hcomplement := ofDigits_complement hys
  have hlt : Nat.ofDigits base xs < base ^ xs.length :=
    Nat.ofDigits_lt_base_pow_length hbase hxs
  rw [hlength] at hcomplement
  obtain ⟨hdigits, hcarry⟩ := h.eq hbase hrs
  have hsum : Nat.ofDigits base xs + Nat.ofDigits base (complement base ys) + c
      = Nat.ofDigits base xs + base ^ xs.length - (Nat.ofDigits base ys + (1 - c)) := by omega
  rw [hsum] at hdigits hcarry
  refine ⟨hdigits, hcarry.trans ?_⟩
  split
  next hle =>
    rw [Nat.div_eq_iff (by omega)]
    omega
  next hlt => exact Nat.div_eq_of_lt (by omega)

end Digits
