import DataAccess.Value.Column
import Mathlib

/-!
This module contains what becomes of values that are stored in a column and read again. Main statement: a value
comes back as it was, but for options that are stored as nothing, of which only the outermost is left; and apart
from truth values and reals, what is read is stored again as it was.
-/

namespace DataAccess

def StorableInt.range : StorableInt → Set Int
  | i8 => Set.Icc (-128) 127
  | i16 => Set.Icc (-32768) 32767
  | i32 => Set.Icc (-2147483648) 2147483647
  | i64 => Set.Icc (-9223372036854775808) 9223372036854775807
  | u8 => Set.Icc 0 255
  | u16 => Set.Icc 0 65535
  | u32 => Set.Icc 0 4294967295

theorem StorableInt.has_iff_mem_range (t : StorableInt) (n : Int) : t.type.has n ↔ n ∈ t.range := by
  cases t with
  | i8 | i16 | i32 | i64 | u8 | u16 | u32 => rfl

theorem StorableInt.toInt_ofInt {t : StorableInt} {n : Int} (h : t.type.has n) : (Int64.ofInt n).toInt = n := by
  have hstored : -9223372036854775808 ≤ n ∧ n ≤ 9223372036854775807 := by
    rw [has_iff_mem_range] at h
    cases t with
    | i8 | i16 | i32 | i64 | u8 | u16 | u32 =>
      obtain ⟨hleast, hgreatest⟩ := h
      omega
  apply Int64.toInt_ofInt_of_le
  . exact hstored.1
  . exact Int.lt_add_one_of_le hstored.2

theorem Value.isNull_iff {v : Value} : v.isNull = true ↔ v = .null := by
  cases v with
  | null => simp [isNull]
  | integer | real | text | blob => simp [isNull]

namespace ColumnType

def core : ColumnType → ColumnType
  | option t => t.core
  | t => t

def isOption : ColumnType → Bool
  | option _ => true
  | _ => false

section

variable {t : ColumnType} {x : Value}

theorem read_option_of_isNull (hx : x.isNull = true) : (option t).read x = .ok none := if_pos hx

theorem read_option_of_not_isNull (hx : x.isNull = false) : (option t).read x = (t.read x).map some :=
  if_neg (by simp [hx])

end

theorem read_store {t : ColumnType} (hcore : t.core ≠ single) (v : t.Val)
    (hv : (t.store v).isNull = false ∨ t.isOption = false) : t.read (t.store v) = .ok v := by
  induction t with
  | int t =>
    have hnumber : (Int64.ofInt v.val).toInt = v.val := StorableInt.toInt_ofInt v.property
    have hhas : t.type.has (Int64.ofInt v.val).toInt := hnumber.symm ▸ v.property
    exact (dif_pos hhas).trans (congrArg Except.ok (Subtype.ext hnumber))
  | bool =>
    cases v with
    | false | true => rfl
  | double | text | blob | value => rfl
  | single => exact absurd rfl hcore
  | option t ih =>
    rcases hv with hv | hoption
    . cases v with
      | none => cases hv
      | some w =>
        change (t.store w).isNull = false at hv
        change (option t).read (t.store w) = _
        rw [read_option_of_not_isNull hv, ih hcore w (.inl hv)]
        rfl
    . cases hoption

theorem store_of_read {t : ColumnType} (hbool : t.core ≠ bool) (hdouble : t.core ≠ double)
    (hsingle : t.core ≠ single) {x : Value} {v : t.Val} (h : t.read x = .ok v) : t.store v = x := by
  induction t with
  | int t =>
    cases x with
    | integer n =>
      by_cases hhas : t.type.has n.toInt
      . cases (dif_pos hhas).symm.trans h
        exact congrArg Value.integer (Int64.ofInt_toInt n)
      . cases (dif_neg hhas).symm.trans h
    | null | real | text | blob => cases h
  | bool => exact absurd rfl hbool
  | double => exact absurd rfl hdouble
  | single => exact absurd rfl hsingle
  | text =>
    cases x with
    | text =>
      cases h
      rfl
    | null | integer | real | blob => cases h
  | blob =>
    cases x with
    | blob =>
      cases h
      rfl
    | null | integer | real | text => cases h
  | value =>
    cases h
    rfl
  | option t ih =>
    cases hx : x.isNull with
    | true =>
      rw [read_option_of_isNull hx] at h
      cases h
      exact (Value.isNull_iff.1 hx).symm
    | false =>
      rw [read_option_of_not_isNull hx] at h
      cases hread : t.read x with
      | error =>
        rw [hread] at h
        cases h
      | ok w =>
        rw [hread] at h
        cases h
        exact ih hbool hdouble hsingle hread

/-- A number is read as an integer type if and only if the type has it, and as the number that it is. -/
theorem read_integer_iff (t : StorableInt) (n : Int64) (v : (int t).Val)
    : (int t).read (.integer n) = .ok v ↔ v.val = n.toInt := by
  constructor
  . intro h
    have hstored : (int t).store v = .integer n := by
      apply store_of_read _ _ _ h
      all_goals simp [core]
    have hn : Int64.ofInt v.val = n := Value.integer.inj hstored
    rw [← hn, StorableInt.toInt_ofInt v.property]
  . intro hv
    have hn : Int64.ofInt v.val = n := by rw [hv, Int64.ofInt_toInt]
    have hstored : (int t).store v = .integer n := congrArg Value.integer hn
    rw [← hstored]
    exact read_store (by simp [core]) v (.inl rfl)

theorem exists_read_integer_iff (t : StorableInt) (n : Int64)
    : (∃ v, (int t).read (.integer n) = .ok v) ↔ n.toInt ∈ t.range := by
  rw [← StorableInt.has_iff_mem_range]
  constructor
  . rintro ⟨v, hv⟩
    rw [← (read_integer_iff t n v).1 hv]
    exact v.property
  . intro hn
    exact ⟨⟨n.toInt, hn⟩, (read_integer_iff t n _).2 rfl⟩

/-- What is stored is read as it was, unless it is stored as nothing, which is read as no value by the outermost
option. What is read is stored as it was, unless truth values or reals are read. Integers are read as they are,
by the types that have them. -/
theorem values_kept
    : (∀ (t : ColumnType) (v : t.Val), t.core ≠ single →
          (t.store v).isNull = false ∨ t.isOption = false → t.read (t.store v) = .ok v) ∧
        (∀ (t : ColumnType) (v : (option t).Val), ((option t).store v).isNull = true →
          (option t).read ((option t).store v) = .ok none) ∧
        (∀ (t : ColumnType) (x : Value) (v : t.Val), t.core ≠ bool → t.core ≠ double → t.core ≠ single →
          t.read x = .ok v → t.store v = x) ∧
        ∀ (t : StorableInt) (n : Int64),
          (∀ v : (int t).Val, (int t).read (.integer n) = .ok v ↔ v.val = n.toInt) ∧
            ((∃ v, (int t).read (.integer n) = .ok v) ↔ n.toInt ∈ t.range) := by
  refine ⟨fun t v hcore hv => read_store hcore v hv, fun t v hv => read_option_of_isNull hv,
    fun t x v hbool hdouble hsingle h => store_of_read hbool hdouble hsingle h, fun t n => ⟨?_, ?_⟩⟩
  . exact read_integer_iff t n
  . exact exists_read_integer_iff t n

/-- The greatest byte below two options, and what is left when the inner one is empty. -/
theorem values_kept_optionalByte
    : let t := option (option (int .u8))
      let byte : t.Val := some (some ⟨255, by decide⟩)
      let empty : t.Val := some none
      (t.store byte).isNull = false ∧ t.read (t.store byte) = .ok byte ∧
        (t.store empty).isNull = true ∧ t.read (t.store empty) = .ok none ∧
        t.store byte = .integer 255 ∧ ¬∃ v, (int .u8).read (.integer 256) = .ok v := by
  intro t byte empty
  obtain ⟨hread, hnull, hstore, hinteger⟩ := values_kept
  have hbyte : t.read (t.store byte) = .ok byte := hread t byte (by decide) (.inl rfl)
  refine ⟨rfl, hbyte, rfl, hnull _ empty rfl, ?_, ?_⟩
  . exact hstore t (.integer 255) byte (by decide) (by decide) (by decide) rfl
  . rw [(hinteger .u8 256).2]
    exact fun hrange => absurd hrange.2 (by decide)

end ColumnType

end DataAccess
