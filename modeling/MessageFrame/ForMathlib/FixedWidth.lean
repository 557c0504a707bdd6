import Mathlib.Algebra.Order.Ring.Int

/-!
# Integer types of a fixed width

An `IntType` is a number of bits and a signedness. Its values are the integers in a range of
length `2 ^ width`, and a conversion to it takes the representative in the range modulo
`2 ^ width`, which is what `static_cast` between integer types does. So a conversion is the
identity exactly on the range, and conversions compose as residues do: `cast_eq_iff`.
-/

/-- An integer type: its width and its signedness. -/
structure IntType where
  width : ℕ
  signed : Bool
  width_pos : 0 < width

namespace IntType

variable (T : IntType)

/-- The number of values. -/
def modulus : ℤ := 2 ^ T.width

/-- The smallest value. -/
def minValue : ℤ := if T.signed then -2 ^ (T.width - 1) else 0

/-- The integers that the type represents. -/
def InRange (x : ℤ) : Prop := T.minValue ≤ x ∧ x < T.minValue + T.modulus

instance (x : ℤ) : Decidable (T.InRange x) :=
  inferInstanceAs (Decidable (T.minValue ≤ x ∧ x < T.minValue + T.modulus))

/-- The values of the type. -/
def Val : Type := { x : ℤ // T.InRange x }

/-- `static_cast`, of a mathematical integer. -/
def cast (x : ℤ) : ℤ := T.minValue + (x - T.minValue) % T.modulus

variable {T}

theorem modulus_pos : 0 < T.modulus := Int.pow_pos (by decide)

theorem cast_inRange (x : ℤ) : T.InRange (T.cast x) := by
  have hnonneg := Int.emod_nonneg (x - T.minValue) (Int.ne_of_gt (modulus_pos (T := T)))
  have hlt := Int.emod_lt_of_pos (x - T.minValue) (modulus_pos (T := T))
  unfold InRange cast
  omega

/-- The value that a conversion yields. -/
def ofInt (T : IntType) (x : ℤ) : T.Val := ⟨T.cast x, cast_inRange x⟩

theorem cast_of_inRange {x : ℤ} (h : T.InRange x) : T.cast x = x := by
  obtain ⟨hmin, hmax⟩ := h
  unfold cast
  rw [Int.emod_eq_of_lt (by omega) (by omega)]
  omega

/-- A conversion keeps the residue. -/
theorem cast_emod (x : ℤ) : T.cast x % T.modulus = x % T.modulus := by
  unfold cast
  rw [Int.add_emod_emod]
  congr 1
  omega

/-- The representative of a residue in the range is unique. -/
theorem eq_of_emod_eq {x y : ℤ} (hx : T.InRange x) (hy : T.InRange y)
    (h : x % T.modulus = y % T.modulus) : x = y := by
  rw [← cast_of_inRange hx, ← cast_of_inRange hy, cast, cast, Int.sub_emod, h, ← Int.sub_emod]

/-- **What a conversion yields**: the value with the same residue. -/
theorem cast_eq_iff {x y : ℤ} (hy : T.InRange y) :
    T.cast x = y ↔ x % T.modulus = y % T.modulus := by
  constructor
  · rintro rfl
    rw [cast_emod]
  · intro h
    exact eq_of_emod_eq (cast_inRange x) hy ((cast_emod x).trans h)

theorem cast_eq_self_iff {x : ℤ} : T.cast x = x ↔ T.InRange x := by
  constructor
  · intro h
    rw [← h]
    exact cast_inRange x
  · exact cast_of_inRange

/-! ### There and back -/

theorem modulus_dvd {S : IntType} (h : S.width ≤ T.width) : S.modulus ∣ T.modulus :=
  pow_dvd_pow 2 h

/-- A conversion to a type that is as wide keeps the residue. -/
theorem cast_emod_of_le {S : IntType} (h : T.width ≤ S.width) (x : ℤ) :
    S.cast x % T.modulus = x % T.modulus := by
  rw [← Int.emod_emod_of_dvd _ (modulus_dvd h), cast_emod, Int.emod_emod_of_dvd _ (modulus_dvd h)]

/-- The type of the same width and of the signedness of `S`. -/
def withSign (T S : IntType) : IntType := { T with signed := S.signed }

/-- Of two types of the same signedness, the wider one has more values. -/
theorem InRange.widen {S : IntType} {x : ℤ} (h : S.InRange x) (hw : S.width ≤ T.width) :
    (T.withSign S).InRange x := by
  have hle : (2 : ℤ) ^ S.width ≤ 2 ^ T.width := pow_le_pow_right₀ (by decide) hw
  have hhalf : (2 : ℤ) ^ (S.width - 1) ≤ 2 ^ (T.width - 1) :=
    pow_le_pow_right₀ (by decide) (Nat.sub_le_sub_right hw 1)
  have hS : (2 : ℤ) ^ S.width = 2 * 2 ^ (S.width - 1) := by
    rw [← Int.pow_succ', Nat.sub_add_cancel S.width_pos]
  have hT : (2 : ℤ) ^ T.width = 2 * 2 ^ (T.width - 1) := by
    rw [← Int.pow_succ', Nat.sub_add_cancel T.width_pos]
  obtain ⟨hmin, hmax⟩ := h
  unfold minValue at hmin hmax
  unfold modulus at hmax
  unfold InRange minValue modulus withSign
  cases hsign : S.signed with
  | true =>
    simp only [hsign, if_true] at hmin hmax ⊢
    omega
  | false =>
    simp only [hsign, Bool.false_eq_true, if_false] at hmin hmax ⊢
    omega

/-- **There and back**: converted to `S` and back, a value of `T` is the same again exactly if `S`
is as wide as `T`, or has in its range what the value is for a type of its own signedness. -/
theorem cast_cast_eq_iff {S : IntType} {x : ℤ} (hx : T.InRange x) :
    T.cast (S.cast x) = x ↔ T.width ≤ S.width ∨ S.InRange ((T.withSign S).cast x) := by
  rw [cast_eq_iff hx]
  rcases Nat.lt_or_ge S.width T.width with hlt | hle
  · have hwide : (T.withSign S).InRange (S.cast x) := (cast_inRange x).widen (Nat.le_of_lt hlt)
    have hagree : S.cast x % T.modulus = x % T.modulus ↔ (T.withSign S).cast x = S.cast x := by
      rw [cast_eq_iff hwide]
      exact eq_comm
    rw [hagree, or_iff_right (Nat.not_le.mpr hlt)]
    constructor
    · intro h
      rw [h]
      exact cast_inRange x
    · intro h
      have hsame : S.cast x = (T.withSign S).cast x := by
        rw [cast_eq_iff h, cast_emod_of_le (T := S) (S := T.withSign S) (Nat.le_of_lt hlt)]
      exact hsame.symm
  · exact iff_of_true (cast_emod_of_le hle x) (.inl hle)

/-! ### The types of the model -/

/-- `int32_t`. -/
def int32 : IntType := ⟨32, true, by decide⟩

/-- `int64_t`. -/
def int64 : IntType := ⟨64, true, by decide⟩

theorem toInt_ofInt32 (x : ℤ) : (Int32.ofInt x).toInt = int32.cast x := by
  refine eq_of_emod_eq (T := int32) ?_ (cast_inRange x) ?_
  · exact ⟨Int32.le_toInt _, Int32.toInt_lt _⟩
  · rw [cast_emod, Int32.toInt_ofInt]
    exact Int.bmod_emod

theorem toInt_ofInt64 (x : ℤ) : (Int64.ofInt x).toInt = int64.cast x := by
  refine eq_of_emod_eq (T := int64) ?_ (cast_inRange x) ?_
  · exact ⟨Int64.le_toInt _, Int64.toInt_lt _⟩
  · rw [cast_emod, Int64.toInt_ofInt]
    exact Int.bmod_emod

end IntType
