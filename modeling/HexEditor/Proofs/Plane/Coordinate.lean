import HexEditor.Plane.Sheet
import Mathlib

/-!
# Coordinates

Coordinates are binary32 numbers, and a formula for one may leave the finite numbers.  What is
needed of the arithmetic is only that no formula of a layout ends in something that is not a
number: equality of coordinates is symmetric and transitive anyway, and a number is equal to itself
(`beq_self`).

A sum is a number when one of its parts is finite, and also when both have the same sign
(`number_add`, `number_add_of_sign?`); so it is enough to keep track of signs, and these survive
rounding whether or not it ends in infinity (`sign?_pack`).  Two formulas have to stay finite: half
of a space, and the number of a row (`isFinite_half`, `isFinite_rowPixels`).  Rounding ends in
infinity only from an exponent on that neither reaches (`isFinite_roundWithAccuracy`).
-/

namespace HexEditor

open Float.Model Float.Model.UnpackedFloat

variable {x y z : Float32} {s t : Sign} {u v : UnpackedFloat}

/-! ## Signs -/

/-- The sign of a float; what is not a number has none. -/
def unpackedSign? : UnpackedFloat → Option Sign
  | .notANumber => none
  | .infinity s => some s
  | .zero s => some s
  | .finite s _ _ _ => some s

/-- The sign of a coordinate; what is not a number has none. -/
def sign? (x : Float32) : Option Sign := unpackedSign? x.toModel.unpack

/-- The coordinate is a number, though perhaps not a finite one. -/
def Number (x : Float32) : Prop := x.isNaN = false

theorem number_iff : Number x ↔ ∃ s, sign? x = some s := by
  unfold Number sign?
  show x.toModel.unpack.isNaN = false ↔ _
  cases x.toModel.unpack <;> simp [UnpackedFloat.isNaN, unpackedSign?]

theorem number_of_isFinite (h : x.isFinite = true) : Number x := by
  unfold Number
  change x.toModel.unpack.isFinite = true at h
  show x.toModel.unpack.isNaN = false
  cases hx : x.toModel.unpack <;> simp_all [UnpackedFloat.isFinite, UnpackedFloat.isNaN]

/-- What packed components stand for is a number with the sign among them, unless they are kept for
what is not a number. -/
theorem sign?_packComponents (s : Sign) (e : BitVec 8) (m : BitVec 23) :
    unpackedSign? (UnpackedFloat.unpack Format.binary32 (packComponents Format.binary32 s e m)) =
      if e = -1#8 ∧ m ≠ 0#23 then none else some s := by
  unfold UnpackedFloat.unpack
  simp only [unpackExponent_packComponents, unpackMantissa_packComponents,
    unpackSign_packComponents, Sign.ofBitVec_toBitVec]
  by_cases hexponent : e = -1#8
  · by_cases hmantissa : m = 0#23
    · simp [hexponent, hmantissa, unpackedSign?]
    · simp [hexponent, hmantissa, unpackedSign?]
  · rw [if_neg hexponent]
    simp only [hexponent, false_and, if_false]
    split_ifs <;> rfl

/-- The exponent of what fits is not the one that is kept for infinity. -/
theorem ofNat_ne_neg_one {n : Nat} (h : ¬ 2 ^ 8 ≤ n + 1) : BitVec.ofNat 8 n ≠ -1#8 := by
  intro heq
  have hval := congrArg BitVec.toNat heq
  rw [BitVec.toNat_ofNat, Nat.mod_eq_of_lt (by omega), show (-1#8).toNat = 255 from rfl] at hval
  omega

/-- What is packed is a number if it was one, and has the same sign. -/
theorem sign?_pack (u : UnpackedFloat) :
    unpackedSign? (Float32.Model.pack u).unpack = unpackedSign? u := by
  show unpackedSign?
    (UnpackedFloat.unpack Format.binary32 (UnpackedFloat.pack Format.binary32 u)) = _
  cases u with
  | notANumber => exact (sign?_packComponents ..).trans (if_pos (by decide))
  | infinity s => exact (sign?_packComponents ..).trans (if_neg fun h => h.2 rfl)
  | zero s => exact (sign?_packComponents ..).trans (if_neg fun h => absurd h.1 (by decide))
  | finite s m e hpos =>
      unfold UnpackedFloat.pack
      dsimp only
      split_ifs with hbig hnormal
      · exact (sign?_packComponents ..).trans (if_neg fun h => h.2 rfl)
      · exact (sign?_packComponents ..).trans (if_neg fun h => ofNat_ne_neg_one hbig h.1)
      · exact (sign?_packComponents ..).trans (if_neg fun h => absurd h.1 (by decide))

/-- What is packed stays finite if its exponent is not too great. -/
theorem isFinite_pack {m : Nat} {e : Int} (hpos : 0 < m) (he : e ≤ 104) :
    (Float32.Model.pack (.finite s m e hpos)).unpack.isFinite = true := by
  have hcomponents : ∀ (f : BitVec 8) (k : BitVec 23), f ≠ -1#8 →
      (UnpackedFloat.unpack Format.binary32
        (packComponents Format.binary32 s f k)).isFinite = true := by
    intro f k hf
    unfold UnpackedFloat.unpack
    simp only [unpackExponent_packComponents, unpackMantissa_packComponents]
    rw [if_neg hf]
    split_ifs <;> rfl
  have hsmall : ¬ 2 ^ 8 ≤ (e + Format.binary32.exponentBias + (23 : Nat)).toNat + 1 := by
    rw [show Format.binary32.exponentBias = 127 from rfl]
    omega
  show (UnpackedFloat.unpack Format.binary32
    (UnpackedFloat.pack Format.binary32 (.finite s m e hpos))).isFinite = true
  unfold UnpackedFloat.pack
  dsimp only
  rw [if_neg hsmall]
  split_ifs
  · exact hcomponents _ _ (ofNat_ne_neg_one hsmall)
  · exact hcomponents _ _ (by decide)

/-! ## Sums and products -/

theorem sign?_roundWithAccuracy (m : Nat) (e : Int) (accuracy : Accuracy) :
    unpackedSign? (roundWithAccuracy Format.binary32 s m e accuracy) = some s := by
  unfold roundWithAccuracy
  dsimp only
  split_ifs <;> rfl

theorem sign?_round (m : Nat) (e : Int) :
    unpackedSign? (UnpackedFloat.round Format.binary32 s m e) = some s := sign?_roundWithAccuracy ..

/-- Finite sums are rounded to a number. -/
theorem exists_sign?_normalize (m e : Int) (zeroSign : Sign) :
    ∃ t, unpackedSign? (UnpackedFloat.normalize Format.binary32 m e zeroSign) = some t := by
  unfold UnpackedFloat.normalize
  split
  · exact ⟨_, sign?_round ..⟩
  · exact ⟨_, rfl⟩
  · exact ⟨_, sign?_round ..⟩

/-- The sum of two numbers is one if the second is finite, and if they have the same sign. -/
theorem exists_sign?_add (hu : unpackedSign? u = some s) (hv : unpackedSign? v = some t)
    (h : v.isFinite = true ∨ s = t) :
    ∃ r, unpackedSign? (UnpackedFloat.add Format.binary32 u v) = some r := by
  cases u with
  | notANumber => cases hu
  | infinity s =>
      cases v with
      | notANumber => cases hv
      | infinity t =>
          cases hu
          cases hv
          obtain h | rfl := h
          · cases h
          · exact ⟨s, by cases s <;> rfl⟩
      | zero t => exact ⟨s, rfl⟩
      | finite t n f hn => exact ⟨s, rfl⟩
  | zero s =>
      cases v with
      | notANumber => cases hv
      | infinity t => exact ⟨t, rfl⟩
      | zero t => cases s <;> cases t <;> exact ⟨_, rfl⟩
      | finite t n f hn => exact ⟨t, rfl⟩
  | finite s m e hm =>
      cases v with
      | notANumber => cases hv
      | infinity t => exact ⟨t, rfl⟩
      | zero t => exact ⟨s, rfl⟩
      | finite t n f hn => exact exists_sign?_normalize ..

/-- The difference between a number and a finite one is a number. -/
theorem exists_sign?_sub (hu : unpackedSign? u = some s) (hv : v.isFinite = true) :
    ∃ r, unpackedSign? (UnpackedFloat.sub Format.binary32 u v) = some r := by
  cases v with
  | notANumber => cases hv
  | infinity t => cases hv
  | zero t =>
      cases u with
      | notANumber => cases hu
      | infinity s => exact ⟨s, rfl⟩
      | zero s => cases s <;> cases t <;> exact ⟨_, rfl⟩
      | finite s m e hm => exact ⟨s, rfl⟩
  | finite t n f hn =>
      cases u with
      | notANumber => cases hu
      | infinity s => exact ⟨s, rfl⟩
      | zero s => exact ⟨-t, rfl⟩
      | finite s m e hm => exact exists_sign?_normalize ..

/-- The product of finite numbers is a number, and its sign is the product of theirs. -/
theorem sign?_mul_of_isFinite (hu : unpackedSign? u = some s) (hv : unpackedSign? v = some t)
    (hufinite : u.isFinite = true) (hvfinite : v.isFinite = true) :
    unpackedSign? (UnpackedFloat.mul Format.binary32 u v) = some (s * t) := by
  cases u with
  | notANumber => cases hufinite
  | infinity s => cases hufinite
  | zero s =>
      cases hu
      cases v with
      | notANumber => cases hvfinite
      | infinity t => cases hvfinite
      | zero t => cases hv; rfl
      | finite t n f hn => cases hv; rfl
  | finite s m e hm =>
      cases hu
      cases v with
      | notANumber => cases hvfinite
      | infinity t => cases hvfinite
      | zero t => cases hv; rfl
      | finite t n f hn => cases hv; exact sign?_roundWithAccuracy ..

/-! ## Rounding to a finite number -/

theorem log2_lt_of_lt_two_pow {n k : Nat} (hk : 0 < k) (h : n < 2 ^ k) : n.log2 < k := by
  obtain rfl | hn := Nat.eq_zero_or_pos n
  · simpa using hk
  · exact (Nat.log2_lt hn.ne').mpr h

theorem mantissa_shiftRight (em : ExtendedMantissa) (n : Nat) :
    (em >>> n).mantissa = em.mantissa / 2 ^ n := by
  induction n with
  | zero => exact (Nat.div_one _).symm
  | succ n ih =>
      show (em >>> n).mantissa / 2 = _
      rw [ih, Nat.div_div_eq_div_mul, Nat.pow_succ]

theorem roundedMantissa_le (em : ExtendedMantissa) : em.roundedMantissa ≤ em.mantissa + 1 := by
  obtain ⟨m, roundBit, stickyBit⟩ := em
  unfold ExtendedMantissa.roundedMantissa
  cases roundBit <;> cases stickyBit <;>
    simp only [ExtendedMantissa.accuracy, Accuracy.roundToNearestEven] <;> omega

theorem targetExponent_totalExponent (m : Nat) (e : Int) :
    Format.binary32.targetExponent (totalExponent m e) = max ((m.log2 : Int) + 1 + e - 24) (-149) :=
  rfl

/-- After the shift, what is left of the mantissa has at most twenty-four bits. -/
theorem mantissa_shiftToTargetExponent_lt (m : Nat) (e : Int) (accuracy : Accuracy) :
    (shiftToTargetExponent Format.binary32 m e accuracy).1.mantissa < 2 ^ 24 := by
  have hofAccuracy : (ExtendedMantissa.ofMantissaAndAccuracy m accuracy).mantissa = m := by
    unfold ExtendedMantissa.ofMantissaAndAccuracy
    split <;> rfl
  unfold shiftToTargetExponent shiftToExponent
  dsimp only
  rw [mantissa_shiftRight, hofAccuracy, Nat.div_lt_iff_lt_mul (by positivity), ← Nat.pow_add]
  refine Nat.lt_of_lt_of_le Nat.lt_log2_self (Nat.pow_le_pow_right (by decide) ?_)
  rw [targetExponent_totalExponent]
  omega

theorem exponent_shiftToTargetExponent_le {k m : Nat} {e : Int} (hk : 0 < k) (hm : m < 2 ^ k)
    (accuracy : Accuracy) :
    (shiftToTargetExponent Format.binary32 m e accuracy).2 ≤ max e (max (k + e - 24) (-149)) := by
  have hlog := log2_lt_of_lt_two_pow hk hm
  unfold shiftToTargetExponent shiftToExponent
  dsimp only
  rw [targetExponent_totalExponent]
  omega

/-- Rounding ends in a finite number when what is rounded is less than the greatest power of two
that is finite, and its mantissa is not yet scaled by what only the greatest numbers are. -/
theorem isFinite_roundWithAccuracy {k m : Nat} {e : Int} (hk : 0 < k) (hm : m < 2 ^ k)
    (hke : k + e ≤ 127) (he : e ≤ 103) (accuracy : Accuracy) :
    (Float32.Model.pack
      (roundWithAccuracy Format.binary32 s m e accuracy)).unpack.isFinite = true := by
  have hfirst := exponent_shiftToTargetExponent_le (e := e) hk hm accuracy
  have hmantissa := mantissa_shiftToTargetExponent_lt m e accuracy
  unfold roundWithAccuracy
  dsimp only
  generalize shiftToTargetExponent Format.binary32 m e accuracy = shifted at hfirst hmantissa ⊢
  obtain ⟨em, e₁⟩ := shifted
  dsimp only at hfirst hmantissa ⊢
  -- Rounding up may take one bit more, and then raises the exponent by one.
  have hrounded : em.roundedMantissa < 2 ^ 25 := by
    have hle := roundedMantissa_le em
    omega
  have hsecond := exponent_shiftToTargetExponent_le (e := e₁) (by decide) hrounded .exact
  split_ifs
  · cases s <;> rfl
  · exact isFinite_pack _ (by omega)

theorem isFinite_round {k m : Nat} {e : Int} (hk : 0 < k) (hm : m < 2 ^ k) (hke : k + e ≤ 127) :
    (Float32.Model.pack (UnpackedFloat.round Format.binary32 s m e)).unpack.isFinite = true := by
  have hlog := log2_lt_of_lt_two_pow hk hm
  have htarget := targetExponent_totalExponent m e
  unfold UnpackedFloat.round decreaseExponent
  dsimp only
  generalize Format.binary32.targetExponent (totalExponent m e) = target at htarget ⊢
  have hshifted : m <<< (e - target).toNat < 2 ^ (k + (e - target).toNat) := by
    rw [Nat.shiftLeft_eq, Nat.pow_add]
    exact Nat.mul_lt_mul_of_pos_right hm (by positivity)
  exact isFinite_roundWithAccuracy (by omega) hshifted (by push_cast; omega) (by omega) _

/-! ## Finite coordinates -/

/-- The mantissa of what is unpacked has twenty-four bits, and the exponent is at most that of the
greatest finite numbers. -/
theorem bounds_of_unpack {b : BitVec 32} {m : Nat} {e : Int} {hpos : 0 < m}
    (h : UnpackedFloat.unpack Format.binary32 b = .finite s m e hpos) :
    m < 2 ^ 24 ∧ e ≤ 104 := by
  have hmantissa : (@unpackMantissa Format.binary32 b).toNat < 2 ^ 23 := BitVec.isLt _
  have hexponent : (@unpackExponent Format.binary32 b).toNat < 2 ^ 8 := BitVec.isLt _
  have hbias : Format.binary32.exponentBias = 127 := rfl
  unfold UnpackedFloat.unpack at h
  dsimp only at h
  split_ifs at h with hinfinite hmantissa₀ hsubnormal hzero
  · injection h with hs hm he
    rw [hsubnormal, hbias] at he
    norm_num at he
    exact ⟨by rw [← hm]; omega, by omega⟩
  · injection h with hs hm he
    have hne : (@unpackExponent Format.binary32 b).toNat ≠ 255 :=
      fun heq => hinfinite (BitVec.eq_of_toNat_eq heq)
    refine ⟨hm ▸ BitVec.isLt _, ?_⟩
    rw [hbias] at he
    omega

theorem unpack_two :
    (2 : Float32).toModel.unpack = .finite .positive (2 ^ 23) (-22) (by decide) := rfl

/-- Half of a finite number is computed at an exponent that still leaves room for one more bit. -/
theorem divCore_two_bounds {m : Nat} {e : Int} (hm : m < 2 ^ 24) (he : e ≤ 104) :
    ∃ k : Nat, 0 < k ∧ (divCore Format.binary32 m e (2 ^ 23) (-22)).1 < 2 ^ k ∧
      k + (divCore Format.binary32 m e (2 ^ 23) (-22)).2.1 ≤ 127 ∧
      (divCore Format.binary32 m e (2 ^ 23) (-22)).2.1 ≤ 103 := by
  have hlog := log2_lt_of_lt_two_pow (by decide) hm
  have htarget : (divCore Format.binary32 m e (2 ^ 23) (-22)).2.1 =
      min (e - -22) (max ((m.log2 : Int) + 1 + e - 2 - 24) (-149)) := by
    unfold divCore totalExponent
    rw [Nat.log2_two_pow]
    rfl
  have hquotient : (divCore Format.binary32 m e (2 ^ 23) (-22)).1 =
      m <<< (e - -22 - (divCore Format.binary32 m e (2 ^ 23) (-22)).2.1).toNat / 2 ^ 23 := rfl
  generalize divCore Format.binary32 m e (2 ^ 23) (-22) = quotient at htarget hquotient ⊢
  generalize hshift : (e - -22 - quotient.2.1).toNat = shift at hquotient
  refine ⟨shift + 1, Nat.succ_pos _, ?_, by push_cast; omega, by omega⟩
  rw [hquotient, Nat.shiftLeft_eq, Nat.div_lt_iff_lt_mul (by decide), Nat.pow_succ]
  calc m * 2 ^ shift < 2 ^ 24 * 2 ^ shift := Nat.mul_lt_mul_of_pos_right hm (by positivity)
    _ = 2 ^ shift * 2 * 2 ^ 23 := by omega

theorem isFinite_half (h : x.isFinite = true) : (x / 2).isFinite = true := by
  show (Float32.Model.pack (UnpackedFloat.div Format.binary32 x.toModel.unpack
    (2 : Float32).toModel.unpack)).unpack.isFinite = true
  change x.toModel.unpack.isFinite = true at h
  rw [unpack_two]
  cases hx : x.toModel.unpack with
  | notANumber => rw [hx] at h; cases h
  | infinity s => rw [hx] at h; cases h
  | zero s => cases s <;> rfl
  | finite s m e hpos =>
      obtain ⟨hm, he⟩ := bounds_of_unpack hx
      obtain ⟨k, hk, hquotient, hke, hexponent⟩ := divCore_two_bounds hm he
      exact isFinite_roundWithAccuracy hk hquotient hke hexponent _

/-- The number of a row is rounded, but stays finite. -/
theorem isFinite_rowPixels (row : Nat) : (Sheet.rowPixels row).isFinite = true := by
  show (Float32.Model.pack
    (UnpackedFloat.normalize Format.binary32 row.toUInt64.toNat 0 .positive)).unpack.isFinite = true
  have hrow := row.toUInt64.toNat_lt
  unfold UnpackedFloat.normalize
  split
  · exact isFinite_round (by decide : 0 < 64) (by omega) (by decide)
  · rfl
  · exact isFinite_round (by decide : 0 < 64) (by omega) (by decide)

theorem sign?_rowPixels (row : Nat) : sign? (Sheet.rowPixels row) = some .positive := by
  refine (sign?_pack
    (UnpackedFloat.normalize Format.binary32 row.toUInt64.toNat 0 .positive)).trans ?_
  unfold UnpackedFloat.normalize
  split
  next hneg => exact absurd (compare_lt_iff_lt.mp hneg) (by omega)
  next => rfl
  next => exact sign?_round ..

/-! ## Sums of coordinates -/

/-- The sum of a number and a finite one is a number. -/
theorem number_add (hx : Number x) (hy : y.isFinite = true) : Number (x + y) := by
  obtain ⟨s, hs⟩ := number_iff.mp hx
  obtain ⟨t, ht⟩ := number_iff.mp (number_of_isFinite hy)
  obtain ⟨r, hr⟩ := exists_sign?_add hs ht (.inl hy)
  exact number_iff.mpr ⟨r, (sign?_pack _).trans hr⟩

/-- The sum of two numbers with the same sign is a number. -/
theorem number_add_of_sign? (hx : sign? x = some s) (hy : sign? y = some s) : Number (x + y) := by
  obtain ⟨r, hr⟩ := exists_sign?_add hx hy (.inr rfl)
  exact number_iff.mpr ⟨r, (sign?_pack _).trans hr⟩

theorem number_sub (hx : Number x) (hy : y.isFinite = true) : Number (x - y) := by
  obtain ⟨s, hs⟩ := number_iff.mp hx
  obtain ⟨r, hr⟩ := exists_sign?_sub hs hy
  exact number_iff.mpr ⟨r, (sign?_pack _).trans hr⟩

theorem sign?_mul (hx : sign? x = some s) (hy : sign? y = some t) (hxfinite : x.isFinite = true)
    (hyfinite : y.isFinite = true) : sign? (x * y) = some (s * t) :=
  (sign?_pack _).trans (sign?_mul_of_isFinite hx hy hxfinite hyfinite)

/-! ## Equality of coordinates -/

theorem beq_self (h : Number x) : (x == x) = true := by
  rw [Number, Float32.isNaN_eq_decide_eq_nan, decide_eq_false_iff_not] at h
  exact Float32.beq_self_iff.mpr h

end HexEditor
