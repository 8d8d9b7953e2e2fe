import Staging.Number.Shortest
import Staging.Proofs.Number.Nearest

/-!
# Decimals and the doubles that attract them

A decimal numeral is read as the double that attracts it (`ofDecimal_of_attracts`), whatever
coefficient and exponent stand for its value (`AttractsDecimal.congr`), and the shortest decimal of
a double is attracted by it (`shortest_attracted`).
-/

namespace Staging

namespace Decimal

/-- The value as a quotient of naturals. -/
def numerator (d : Decimal) : Nat := d.coefficient * Nat.pow 10 d.exponent.toNat

def denominator (d : Decimal) : Nat := Nat.pow 10 (-d.exponent).toNat

/-- Two decimals of the same value. -/
def Same (a b : Decimal) : Prop :=
  a.numerator * b.denominator = b.numerator * a.denominator

theorem denominator_pos (d : Decimal) : 0 < d.denominator := Nat.pow_pos (by decide)

theorem Same.refl (d : Decimal) : Same d d := rfl

theorem Same.symm {a b : Decimal} (h : Same a b) : Same b a := Eq.symm h

/-- Zeros at the end of a coefficient count for the exponent. -/
theorem same_shift (c k : Nat) (e : Int) : Same ⟨c * Nat.pow 10 k, e⟩ ⟨c, e + k⟩ := by
  simp only [Same, numerator, denominator, Nat.pow_eq]
  calc c * 10 ^ k * 10 ^ e.toNat * 10 ^ (-(e + k)).toNat
      = c * 10 ^ (k + e.toNat + (-(e + k)).toNat) := by rw [Nat.pow_add, Nat.pow_add]; ring
    _ = c * 10 ^ ((e + k).toNat + (-e).toNat) := by congr 2; omega
    _ = c * 10 ^ (e + k).toNat * 10 ^ (-e).toNat := by rw [Nat.pow_add]; ring

end Decimal

namespace Double

/-! ## Attraction depends on the value alone -/

theorem Attracts.congr {x : Double} {n d n' d' : Nat} (hd : 0 < d) (hd' : 0 < d')
    (heq : n * d' = n' * d) (h : x.Attracts n d) : x.Attracts n' d' := by
  obtain ⟨hlow, hhigh, hodd⟩ := h
  -- each bound is multiplied by the new denominator and divided by the old one
  have hn : 4 * n' * d = 4 * n * d' := by rw [Nat.mul_assoc, ← heq]; ring
  have hu : 4 * (x.units * d') * d = 4 * (x.units * d) * d' := by ring
  have hlow' : (4 * n' + x.reachBelow * d') * d = (4 * n + x.reachBelow * d) * d' := by
    rw [Nat.add_mul, hn]; ring
  have hhigh' : (4 * (x.units * d') + 2 * Nat.pow 2 x.place * d') * d
      = (4 * (x.units * d) + 2 * Nat.pow 2 x.place * d) * d' := by ring
  refine ⟨?_, ?_, fun hr => ⟨?_, ?_⟩⟩
  · refine Nat.le_of_mul_le_mul_right ?_ hd
    rw [hu, hlow']
    exact Nat.mul_le_mul_right d' hlow
  · refine Nat.le_of_mul_le_mul_right ?_ hd
    rw [hn, hhigh']
    exact Nat.mul_le_mul_right d' hhigh
  · refine Nat.lt_of_mul_lt_mul_right (a := d) ?_
    rw [hu, hlow']
    exact Nat.mul_lt_mul_of_pos_right (hodd hr).1 hd'
  · refine Nat.lt_of_mul_lt_mul_right (a := d) ?_
    rw [hn, hhigh']
    exact Nat.mul_lt_mul_of_pos_right (hodd hr).2 hd'

/-- The value of a decimal is attracted. -/
def AttractsDecimal (x : Double) (d : Decimal) : Prop :=
  x.Attracts (d.numerator * Nat.pow 2 1074) d.denominator

theorem AttractsDecimal.congr {x : Double} {a b : Decimal} (hab : a.Same b)
    (h : x.AttractsDecimal a) : x.AttractsDecimal b := by
  refine Attracts.congr a.denominator_pos b.denominator_pos ?_ h
  rw [Nat.mul_right_comm, hab, Nat.mul_right_comm]

/-! ## Reading -/

/-- A double other than zero attracts no magnitude below half the smallest double. -/
theorem Attracts.denominator_le {x : Double} {n d : Nat} (hpos : 0 < x.rank)
    (h : x.Attracts n d) : d ≤ 2 * n := by
  have hlow := h.low
  have hs : 0 < x.significand := by
    rw [significand]
    split
    · exact hpos
    · exact Nat.add_pos_left (Nat.pow_pos (by decide)) _
  have hp : 0 < Nat.pow 2 x.place := Nat.pow_pos (by decide)
  have hunits : Nat.pow 2 x.place * d ≤ x.units * d := by
    rw [units]
    exact Nat.mul_le_mul_right d (Nat.le_mul_of_pos_left _ hs)
  have hbelow : x.reachBelow * d ≤ 2 * (Nat.pow 2 x.place * d) := by
    rw [← Nat.mul_assoc]
    refine Nat.mul_le_mul_right d ?_
    rw [reachBelow]
    split <;> omega
  have hd : d ≤ Nat.pow 2 x.place * d := Nat.le_mul_of_pos_left _ hp
  omega

theorem place_le {x : Double} (hfin : x.isFinite = true) : x.place ≤ 2045 := by
  have hlt : x.rank < 2047 * Nat.pow 2 52 := of_decide_eq_true hfin
  have : x.rank / Nat.pow 2 52 < 2047 := (Nat.div_lt_iff_lt_mul (Nat.pow_pos (by decide))).2 hlt
  rw [place]
  omega

/-- A double attracts no magnitude at the end of its binade or beyond. -/
theorem Attracts.numerator_lt {x : Double} {n d : Nat} (hd : 0 < d) (h : x.Attracts n d) :
    n < Nat.pow 2 (53 + x.place) * d := by
  have hhigh := h.high
  have hunits : x.units + Nat.pow 2 x.place ≤ Nat.pow 2 (53 + x.place) := by
    rw [units, ← Nat.succ_mul]
    exact Nat.le_trans (Nat.mul_le_mul_right _ x.significand_lt)
      (Nat.le_of_eq (Nat.pow_add 2 53 x.place).symm)
  have hsum := Nat.mul_le_mul_right d hunits
  have hpos : 0 < Nat.pow 2 x.place * d := Nat.mul_pos (Nat.pow_pos (by decide)) hd
  rw [Nat.add_mul] at hsum
  rw [Nat.mul_assoc 2] at hhigh
  omega

theorem pow_two_le_pow_ten {k m j : Nat} (h : k ≤ 3 * m + j) :
    Nat.pow 2 k ≤ Nat.pow 10 m * Nat.pow 2 j :=
  calc Nat.pow 2 k ≤ Nat.pow 2 (3 * m + j) := Nat.pow_le_pow_right (by decide) h
    _ = Nat.pow 2 (3 * m) * Nat.pow 2 j := Nat.pow_add 2 (3 * m) j
    _ = Nat.pow 8 m * Nat.pow 2 j := congrArg (· * Nat.pow 2 j) (Nat.pow_mul 2 3 m)
    _ ≤ Nat.pow 10 m * Nat.pow 2 j := Nat.mul_le_mul_right _ (Nat.pow_le_pow_left (by decide) m)

/-- The digits that a coefficient needs to make up for a negative exponent. -/
theorem log2_of_pow_ten_le {m c k : Nat} (h : Nat.pow 10 m ≤ 2 * (c * Nat.pow 2 k)) :
    3 * m < c.log2 + 2 + k := by
  by_contra hlt
  have hge : Nat.pow 2 (c.log2 + 2 + k) ≤ Nat.pow 10 m :=
    Nat.le_trans (pow_two_le_pow_ten (j := 0) (Nat.le_of_not_lt hlt)) (by simp)
  have hc : 2 * c < Nat.pow 2 (c.log2 + 2) := by
    have : c < Nat.pow 2 (c.log2 + 1) := Nat.lt_log2_self
    have : Nat.pow 2 (c.log2 + 2) = 2 * Nat.pow 2 (c.log2 + 1) := Nat.pow_succ'
    omega
  have hlt' : 2 * (c * Nat.pow 2 k) < Nat.pow 2 (c.log2 + 2 + k) := by
    rw [← Nat.mul_assoc]
    exact Nat.lt_of_lt_of_le (Nat.mul_lt_mul_of_pos_right hc (Nat.pow_pos (by decide)))
      (Nat.le_of_eq (Nat.pow_add 2 (c.log2 + 2) k).symm)
  omega

/-- What is read as zero because of its small exponent is too small for any other double. -/
theorem not_tiny_of_attracts {x : Double} {c : Nat} {e : Int} (hpos : 0 < x.rank) (he : e < 0)
    (h : x.AttractsDecimal ⟨c, e⟩) : 3 * e.natAbs ≤ c.log2 + 1100 := by
  have hle := Attracts.denominator_le hpos h
  have hnum : e.toNat = 0 := by omega
  have hden : (-e).toNat = e.natAbs := by omega
  rw [Decimal.numerator, Decimal.denominator, hnum, hden] at hle
  have := log2_of_pow_ten_le (c := c * 1) hle
  rw [Nat.mul_one] at this
  omega

/-- What is read as infinity because of its great exponent is too great for a finite double. -/
theorem not_huge_of_attracts {x : Double} {c : Nat} {e : Int} (hc : 0 < c)
    (hfin : x.isFinite = true) (h : x.AttractsDecimal ⟨c, e⟩) : e ≤ 400 := by
  by_contra hlt
  have hplace := place_le hfin
  have hden : (-e).toNat = 0 := by omega
  have hplaces : 53 + x.place ≤ 3 * e.toNat + 1074 := by omega
  have hnum := Attracts.numerator_lt (Decimal.denominator_pos _) h
  rw [Decimal.numerator, Decimal.denominator, hden, Nat.mul_assoc] at hnum
  have hten := pow_two_le_pow_ten hplaces
  have hge := Nat.le_trans hten (Nat.le_mul_of_pos_left _ hc)
  exact absurd hge (Nat.not_le.2 (Nat.lt_of_lt_of_eq hnum (Nat.mul_one _)))

theorem AttractsDecimal.coefficient_pos {x : Double} {d : Decimal} (hpos : 0 < x.rank)
    (h : x.AttractsDecimal d) : 0 < d.coefficient := by
  have hle := Nat.lt_of_lt_of_le d.denominator_pos (Attracts.denominator_le hpos h)
  have hnum := Nat.pos_of_mul_pos_right (Nat.pos_of_mul_pos_left hle)
  exact Nat.pos_of_mul_pos_right hnum

/-- A decimal is read as the double that attracts it. -/
theorem ofDecimal_of_attracts {x : Double} {c : Nat} {e : Int} (negative : Bool)
    (hpos : 0 < x.rank) (hfin : x.isFinite = true) (h : x.AttractsDecimal ⟨c, e⟩) :
    ofDecimal negative c e = ⟨negative, x.rank⟩ := by
  have hc : 0 < c := h.coefficient_pos hpos
  have hrank := nearestRank_eq (Decimal.denominator_pos ⟨c, e⟩) hfin h
  have hhuge := not_huge_of_attracts hc hfin h
  rw [ofDecimal, if_neg, if_neg (by omega)]
  · split
    · rename_i he
      have hden : (-e).toNat = 0 := by omega
      have hnum : e.toNat = e.natAbs := by omega
      simpa [Decimal.numerator, Decimal.denominator, hden, hnum] using hrank
    · rename_i he
      have hden : (-e).toNat = e.natAbs := by omega
      have hnum : e.toNat = 0 := by omega
      simpa [Decimal.numerator, Decimal.denominator, hden, hnum] using hrank
  · rintro (hzero | ⟨he, htiny⟩)
    · omega
    · have := not_tiny_of_attracts hpos he h
      omega

/-! ## The shortest decimal -/

theorem gridBelow_eq (x : Double) : x.gridBelow = x.reachBelow * Nat.pow 10 gridPlaces := by
  rw [gridBelow, reachBelow]
  split <;> rfl

theorem attracts_of_roundsTo {x : Double} {g : Nat} (h : x.roundsTo g = true) :
    x.Attracts g (4 * Nat.pow 10 gridPlaces) := by
  have hunits : x.units * (4 * Nat.pow 10 gridPlaces) = x.gridValue := by
    rw [gridValue]; ring
  have hbelow : x.reachBelow * (4 * Nat.pow 10 gridPlaces) = 4 * x.gridBelow := by
    rw [gridBelow_eq]; ring
  have habove : 2 * Nat.pow 2 x.place * (4 * Nat.pow 10 gridPlaces) = 4 * x.gridAbove := by
    rw [gridAbove]; ring
  rw [roundsTo] at h
  split at h
  · rename_i heven
    simp only [Bool.and_eq_true, decide_eq_true_eq] at h
    refine ⟨?_, ?_, fun hodd => by omega⟩
    · rw [hunits, hbelow]; omega
    · rw [hunits, habove]; omega
  · simp only [Bool.and_eq_true, decide_eq_true_eq] at h
    refine ⟨?_, ?_, fun _ => ⟨?_, ?_⟩⟩
    · rw [hunits, hbelow]; omega
    · rw [hunits, habove]; omega
    · rw [hunits, hbelow]; omega
    · rw [hunits, habove]; omega

theorem neighbour_roundsTo {x : Double} {cell c : Nat} (h : x.neighbour? cell = some c) :
    x.roundsTo (c * cell) = true := by
  simp only [neighbour?] at h
  split at h
  · cases h
  · rename_i hlow _
    obtain rfl := Option.some.inj h
    exact hlow
  · rename_i _ hhigh
    obtain rfl := Option.some.inj h
    exact hhigh
  · rename_i hlow hhigh
    split at h
    · obtain rfl := Option.some.inj h
      exact hlow
    · split at h
      · obtain rfl := Option.some.inj h
        exact hhigh
      · -- of two equally near neighbours the even one is taken
        obtain rfl := Option.some.inj h
        rcases Nat.mod_two_eq_zero_or_one (x.gridValue / cell) with hmod | hmod
        · rw [hmod]; exact hlow
        · rw [hmod]; exact hhigh

/-- Four quarters make a unit. -/
theorem cells_eq (c a b k : Nat) :
    c * (a * Nat.pow 2 (k + 2)) * b = c * a * Nat.pow 10 0 * Nat.pow 2 k * (4 * b) := by
  rw [show Nat.pow 2 (k + 2) = Nat.pow 2 k * 4 from Nat.pow_add 2 k 2]
  simp only [Nat.pow_eq, Nat.pow_zero]
  ring

theorem attracted_of_onGrid {x : Double} {digits count : Nat} {d : Decimal}
    (h : x.onGrid? digits count = some d) : x.AttractsDecimal d := by
  obtain ⟨c, hc, rfl⟩ := Option.map_eq_some_iff.mp h
  have hround := attracts_of_roundsTo (neighbour_roundsTo hc)
  have hcell : x.AttractsDecimal ⟨c * Nat.pow 10 (digits - count), -(gridPlaces : Int)⟩ := by
    refine hround.congr (Nat.mul_pos (by decide) (Nat.pow_pos (by decide)))
      (Decimal.denominator_pos _) ?_
    have hplaces : (-(-(gridPlaces : Int))).toNat = gridPlaces := by omega
    have hnone : (-(gridPlaces : Int)).toNat = 0 := by omega
    rw [Decimal.numerator, Decimal.denominator, hplaces, hnone]
    exact cells_eq c _ _ 1074
  have hsame := Decimal.same_shift c (digits - count) (-(gridPlaces : Int))
  rw [Int.add_comm] at hsame
  exact hcell.congr hsame

/-- Every binary fraction is a decimal one of as many places. -/
theorem tenth_powers_eq (u k : Nat) :
    u * Nat.pow 10 k = u * Nat.pow 5 k * Nat.pow 10 0 * Nat.pow 2 k * 1 := by
  rw [show Nat.pow 10 k = Nat.pow 5 k * Nat.pow 2 k from Nat.mul_pow 5 2 k]
  simp only [Nat.pow_eq, Nat.pow_zero]
  ring

theorem Attracts.self (x : Double) : x.Attracts x.units 1 := by
  have hbelow : 0 < x.reachBelow := by
    have : 0 < Nat.pow 2 x.place := Nat.pow_pos (by decide)
    rw [reachBelow]
    split <;> omega
  have habove : 0 < Nat.pow 2 x.place := Nat.pow_pos (by decide)
  exact ⟨by omega, by omega, fun _ => ⟨by omega, by omega⟩⟩

/-- The double attracts its shortest decimal. -/
theorem shortest_attracted (x : Double) : x.AttractsDecimal x.shortest := by
  simp only [shortest]
  split
  · rename_i d hd
    obtain ⟨k, -, hk⟩ := List.exists_of_findSome?_eq_some hd
    exact attracted_of_onGrid hk
  · refine (Attracts.self x).congr Nat.one_pos (Decimal.denominator_pos _) ?_
    have hplaces : (-(-1074 : Int)).toNat = 1074 := by decide
    have hnone : (-1074 : Int).toNat = 0 := by decide
    rw [Decimal.numerator, Decimal.denominator, hplaces, hnone]
    exact tenth_powers_eq x.units 1074

end Double

end Staging
