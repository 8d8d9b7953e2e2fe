import Mathlib.Tactic.Linarith
import Mathlib.Tactic.Ring
import Staging.Number.Double

/-!
# Rounding to the nearest double

Each double attracts the magnitudes that lie nearer to it than to any other double. The headline is
`nearestRank_eq`: rounding gives exactly the double that attracts. Everything is stated on naturals,
a magnitude being a quotient in units of `2 ^ -1074`.
-/

namespace Staging.Double

/-- Rounding is determined by closeness: `q` is within half of the quotient, and an odd `q` strictly
so. -/
theorem roundHalfEven_eq {n d q : Nat} (hlow : 2 * (q * d) ≤ 2 * n + d)
    (hhigh : 2 * n ≤ 2 * (q * d) + d)
    (hodd : q % 2 = 1 → 2 * (q * d) < 2 * n + d ∧ 2 * n < 2 * (q * d) + d) (hd : 0 < d) :
    roundHalfEven n d = q := by
  have hdiv : n / d * d + n % d = n := Nat.div_add_mod' n d
  have hmod : n % d < d := Nat.mod_lt n hd
  have hle : q ≤ n / d + 1 := by
    by_contra h
    have : (n / d + 2) * d ≤ q * d := Nat.mul_le_mul_right d (by omega)
    rw [Nat.add_mul] at this
    omega
  have hge : n / d ≤ q := by
    by_contra h
    have : (q + 1) * d ≤ n / d * d := Nat.mul_le_mul_right d (by omega)
    rw [Nat.add_mul] at this
    omega
  simp only [roundHalfEven]
  rcases Nat.lt_or_ge q (n / d + 1) with h | h
  · obtain rfl : q = n / d := by omega
    split
    · rfl
    · split <;> omega
  · obtain rfl : q = n / d + 1 := by omega
    rw [Nat.add_mul] at hlow hhigh hodd
    split
    · omega
    · split <;> omega

theorem log2_sub_of_bounds {m p : Nat} (hlow : p = 0 ∨ Nat.pow 2 (52 + p) ≤ m)
    (hhigh : m < Nat.pow 2 (53 + p)) : Nat.log2 m - 52 = p := by
  by_cases hm : m = 0
  · subst hm
    rcases hlow with rfl | h
    · rfl
    · exact absurd h (by simp)
  · have hlt : Nat.log2 m < 53 + p := (Nat.log2_lt hm).2 hhigh
    rcases hlow with rfl | h
    · omega
    · have : 52 + p ≤ Nat.log2 m := (Nat.le_log2 hm).2 h
      omega

/-! ## The digits of a double -/

theorem significand_lt (x : Double) : x.significand < Nat.pow 2 53 := by
  have h52 : Nat.pow 2 52 = 4503599627370496 := rfl
  have h53 : Nat.pow 2 53 = 9007199254740992 := rfl
  rw [significand, h52, h53]
  split <;> omega

theorem significand_ge {x : Double} (h : 0 < x.place) : Nat.pow 2 52 ≤ x.significand := by
  have h52 : Nat.pow 2 52 = 4503599627370496 := rfl
  rw [place, h52] at h
  rw [significand, h52]
  split <;> omega

/-- The rank counts the doubles of all binades below, and those below in its own. -/
theorem significand_add_place (x : Double) :
    x.significand + x.place * Nat.pow 2 52 = x.rank := by
  have h52 : Nat.pow 2 52 = 4503599627370496 := rfl
  rw [significand, place, h52]
  split <;> omega

/-! ## The interval of a double -/

/-- Half the distance to the double before, in quarters of a unit. -/
def reachBelow (x : Double) : Nat :=
  if x.significand = Nat.pow 2 52 ∧ 0 < x.place then Nat.pow 2 x.place else 2 * Nat.pow 2 x.place

/-- The magnitude `n / d`, in units of `2 ^ -1074`, lies nearer to `x` than to any other double; at
equal distances the double of even rank is the nearer. -/
structure Attracts (x : Double) (n d : Nat) : Prop where
  low : 4 * (x.units * d) ≤ 4 * n + x.reachBelow * d
  high : 4 * n ≤ 4 * (x.units * d) + 2 * Nat.pow 2 x.place * d
  odd : x.rank % 2 = 1 → 4 * (x.units * d) < 4 * n + x.reachBelow * d ∧
    4 * n < 4 * (x.units * d) + 2 * Nat.pow 2 x.place * d

theorem significand_mod_two (x : Double) : x.significand % 2 = x.rank % 2 := by
  have h52 : Nat.pow 2 52 = 2 * 2251799813685248 := rfl
  have h := x.significand_add_place
  rw [h52, Nat.mul_left_comm] at h
  omega

theorem div_bounds {n d a p : Nat} (hd : 0 < d) (hlow : p = 0 ∨ Nat.pow 2 52 * (d * a) ≤ n)
    (ha : a = Nat.pow 2 p) (hhigh : n < Nat.pow 2 53 * (d * a)) :
    Nat.log2 (n / d) - 52 = p := by
  subst ha
  refine log2_sub_of_bounds ?_ ?_
  · refine hlow.imp_right fun h => (Nat.le_div_iff_mul_le hd).2 ?_
    calc Nat.pow 2 (52 + p) * d = Nat.pow 2 52 * (d * Nat.pow 2 p) := by
          simp only [Nat.pow_eq, Nat.pow_add]; ring
      _ ≤ n := h
  · refine (Nat.div_lt_iff_lt_mul hd).2 ?_
    calc n < Nat.pow 2 53 * (d * Nat.pow 2 p) := hhigh
      _ = Nat.pow 2 (53 + p) * d := by simp only [Nat.pow_eq, Nat.pow_add]; ring

/-- A magnitude that lies in the binade of `x` is rounded at the place of `x`. -/
theorem rounds_at_place {x : Double} {n d : Nat} (hd : 0 < d) (h : x.Attracts n d)
    (hbinade : x.reachBelow = 2 * Nat.pow 2 x.place ∨
      Nat.pow 2 52 * (d * Nat.pow 2 x.place) ≤ n) :
    Nat.log2 (n / d) - 52 = x.place ∧
      roundHalfEven n (d * Nat.pow 2 x.place) = x.significand := by
  obtain ⟨hlow, hhigh, hodd⟩ := h
  have h52 : Nat.pow 2 52 = 4503599627370496 := rfl
  have h53 : Nat.pow 2 53 = 9007199254740992 := rfl
  have hs := x.significand_lt
  have hmod := x.significand_mod_two
  have hD : 0 < d * Nat.pow 2 x.place := Nat.mul_pos hd (Nat.pow_pos (by decide))
  have hunits : x.units * d = x.significand * (d * Nat.pow 2 x.place) := by rw [units]; ring
  have habove : 2 * Nat.pow 2 x.place * d = 2 * (d * Nat.pow 2 x.place) := by ring
  rw [hunits, habove] at hhigh hodd
  rw [hunits] at hlow
  have hn : n < Nat.pow 2 53 * (d * Nat.pow 2 x.place) := by
    have := Nat.mul_le_mul_right (d * Nat.pow 2 x.place) (Nat.le_sub_one_of_lt hs)
    rw [h53] at this ⊢
    omega
  by_cases hleast : x.significand = Nat.pow 2 52 ∧ 0 < x.place
  · have hn' : Nat.pow 2 52 * (d * Nat.pow 2 x.place) ≤ n := by
      refine hbinade.resolve_left fun heq => ?_
      rw [reachBelow, if_pos hleast] at heq
      have : 0 < Nat.pow 2 x.place := Nat.pow_pos (by decide)
      omega
    refine ⟨div_bounds hd (Or.inr hn') rfl hn, roundHalfEven_eq ?_ (by omega) ?_ hD⟩
    · rw [hleast.1]; omega
    · intro hq
      rw [hleast.1, h52] at hq
      omega
  · have hbelow : x.reachBelow * d = 2 * (d * Nat.pow 2 x.place) := by
      rw [reachBelow, if_neg hleast]; ring
    rw [hbelow] at hlow hodd
    refine ⟨div_bounds hd ?_ rfl hn, roundHalfEven_eq (by omega) (by omega) ?_ hD⟩
    · rcases Nat.eq_zero_or_pos x.place with hp | hp
      · exact Or.inl hp
      · right
        have hge : Nat.pow 2 52 + 1 ≤ x.significand := by
          have := significand_ge hp
          omega
        have := Nat.mul_le_mul_right (d * Nat.pow 2 x.place) hge
        rw [h52] at this ⊢
        omega
    · intro hq
      rw [hmod] at hq
      have := hodd hq
      omega

/-- A magnitude below the binade of `x` is rounded one place lower, and the carry leads to `x`. -/
theorem rounds_below_place {x : Double} {n d : Nat} (hd : 0 < d) (h : x.Attracts n d)
    (hleast : x.significand = Nat.pow 2 52) {p : Nat} (hp : x.place = p + 1)
    (hn : n < Nat.pow 2 52 * (d * Nat.pow 2 x.place)) :
    Nat.log2 (n / d) - 52 = p ∧ roundHalfEven n (d * Nat.pow 2 p) = Nat.pow 2 53 := by
  have hlow := h.low
  have h52 : Nat.pow 2 52 = 4503599627370496 := rfl
  have h53 : Nat.pow 2 53 = 9007199254740992 := rfl
  have hD : 0 < d * Nat.pow 2 p := Nat.mul_pos hd (Nat.pow_pos (by decide))
  have htwo : d * Nat.pow 2 x.place = 2 * (d * Nat.pow 2 p) := by
    rw [hp, Nat.pow_eq, Nat.pow_eq, Nat.pow_succ]; ring
  have hunits : x.units * d = Nat.pow 2 52 * (d * Nat.pow 2 x.place) := by
    rw [units, hleast]; ring
  have hbelow : x.reachBelow * d = d * Nat.pow 2 x.place := by
    rw [reachBelow, if_pos ⟨hleast, by omega⟩]; ring
  rw [hunits, hbelow, htwo, h52] at hlow
  rw [htwo, h52] at hn
  refine ⟨div_bounds hd (Or.inr ?_) rfl ?_, roundHalfEven_eq ?_ ?_ ?_ hD⟩
  · rw [h52]; omega
  · rw [h53]; omega
  · rw [h53]; omega
  · rw [h53]; omega
  · intro hq
    exact absurd hq (by decide)

/-- Rounding finds the double that attracts a magnitude. -/
theorem nearestRank_eq {x : Double} {n d : Nat} (hd : 0 < d) (hfin : x.isFinite = true)
    (h : x.Attracts (n * Nat.pow 2 1074) d) : nearestRank n d = x.rank := by
  have hrank := x.significand_add_place
  have hlt : x.rank < infinityRank := by simpa [isFinite] using hfin
  simp only [nearestRank]
  generalize n * Nat.pow 2 1074 = m at h ⊢
  by_cases hbinade : x.reachBelow = 2 * Nat.pow 2 x.place ∨
      Nat.pow 2 52 * (d * Nat.pow 2 x.place) ≤ m
  · obtain ⟨hplace, hround⟩ := rounds_at_place hd h hbinade
    rw [hplace, hround]
    omega
  · obtain ⟨hnotFull, hn⟩ := not_or.mp hbinade
    have hleast : x.significand = Nat.pow 2 52 ∧ 0 < x.place := by
      by_contra hc
      exact hnotFull (by rw [reachBelow, if_neg hc])
    obtain ⟨p, hp⟩ : ∃ p, x.place = p + 1 := ⟨x.place - 1, by omega⟩
    obtain ⟨hplace, hround⟩ := rounds_below_place hd h hleast.1 hp (Nat.lt_of_not_le hn)
    have h53 : Nat.pow 2 53 = 2 * Nat.pow 2 52 := rfl
    rw [hleast.1, hp, Nat.add_mul] at hrank
    rw [hplace, hround, h53]
    generalize Nat.pow 2 52 = b at hrank ⊢
    omega

/-! ## Small magnitudes -/

theorem roundHalfEven_le (n d : Nat) : roundHalfEven n d ≤ n / d + 1 := by
  simp only [roundHalfEven]
  split
  · omega
  · split <;> omega

/-- A magnitude below a power of two is rounded to that power at most. -/
theorem nearestRank_le {n d e k : Nat} (h : n * Nat.pow 2 1074 / d < Nat.pow 2 e)
    (he : e = 53 + k) : nearestRank n d ≤ (k + 2) * Nat.pow 2 52 := by
  subst he
  simp only [nearestRank]
  generalize n * Nat.pow 2 1074 = scaled at h ⊢
  refine (Nat.min_le_right _ _).trans ?_
  obtain ⟨place, hplace⟩ : ∃ p, Nat.log2 (scaled / d) - 52 = p := ⟨_, rfl⟩
  rw [hplace]
  have hk : place ≤ k := by
    by_cases hm : scaled / d = 0
    · rw [hm] at hplace
      exact hplace ▸ Nat.zero_le k
    · have := (Nat.log2_lt hm).2 h
      omega
  have hdigits : scaled / d < Nat.pow 2 53 * Nat.pow 2 place := by
    have hpow : Nat.pow 2 53 * Nat.pow 2 place = 2 ^ (53 + place) := (Nat.pow_add 2 53 place).symm
    by_cases hm : scaled / d = 0
    · rw [hm, hpow]
      exact Nat.two_pow_pos _
    · rw [hpow]
      exact (Nat.log2_lt hm).1 (by omega)
  have hquotient : scaled / (d * Nat.pow 2 place) < Nat.pow 2 53 := by
    rw [← Nat.div_div_eq_div_mul]
    exact Nat.div_lt_of_lt_mul (Nat.mul_comm _ _ ▸ hdigits)
  have hround := roundHalfEven_le scaled (d * Nat.pow 2 place)
  have hplaces : place * Nat.pow 2 52 ≤ k * Nat.pow 2 52 := Nat.mul_le_mul_right _ hk
  have hpowers : Nat.pow 2 53 = 2 * Nat.pow 2 52 := by decide
  rw [Nat.add_mul]
  omega

/-- Every integer of 64 bits has a nearest double. -/
theorem ofInt?_of_le {n : Int} (h : n.natAbs ≤ Nat.pow 2 63) : ∃ x, ofInt? n = some x := by
  have hscaled : ∀ u, n.natAbs * Nat.pow 2 u / 1 < Nat.pow 2 (64 + u) := fun u => by
    have hpow : Nat.pow 2 (64 + u) = Nat.pow 2 64 * Nat.pow 2 u := Nat.pow_add 2 64 u
    rw [Nat.div_one, hpow]
    exact Nat.mul_lt_mul_of_pos_right (h.trans_lt (by decide)) (Nat.two_pow_pos u)
  have hrank : nearestRank n.natAbs 1 < infinityRank :=
    (nearestRank_le (hscaled 1074) (k := 1085) (by decide)).trans_lt
      (Nat.mul_lt_mul_of_pos_right (by decide) (Nat.two_pow_pos 52))
  rw [ofInt?]
  exact ⟨_, if_pos hrank⟩

end Staging.Double
