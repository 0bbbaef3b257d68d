import Mathlib.Algebra.Group.Nat.Defs
import Mathlib.Tactic.SplitIfs

/-!
# The order of bytes

Texts are ordered by their code points, one after the other, and this is the order of their UTF-8
bytes. For the first byte of a character tells how many follow it, and is the higher the more there
are; of characters with equally many bytes, the bytes carry the digits of the code points to the
base 64, the highest digit first.

* `Utf8.utf8EncodeChar_eq`: the bytes of a character as a first byte and digits;
* `Utf8.utf8EncodeChar_append_lt`: two characters are told apart by their bytes, whatever follows;
* `Utf8.bytes_lt_iff`: the order of texts is the order of their bytes.
-/

namespace SystemdControl.Utf8

/-- The UTF-8 bytes of a text. -/
def bytes (s : String) : List UInt8 :=
  s.toUTF8.data.toList

/-! ## Bytes of a character -/

/-- How many bytes come after the first one of a character. -/
def following (n : Nat) : Nat :=
  if n ≤ 0x7f then 0 else if n ≤ 0x7ff then 1 else if n ≤ 0xffff then 2 else 3

/-- What a first byte has beside its digit. -/
def mark : Nat → Nat
  | 0 => 0
  | 1 => 0xc0
  | 2 => 0xe0
  | _ => 0xf0

/-- The first byte of a character. -/
def lead (n : Nat) : Nat :=
  n / 64 ^ following n + mark (following n)

/-- The last `k` digits of a number to the base 64, each in a byte of its own. -/
def digits (n : Nat) : Nat → List UInt8
  | 0 => []
  | k + 1 => .ofNat (n / 64 ^ k % 64 + 0x80) :: digits n k

theorem toNat_lt (c : Char) : c.toNat < 0x110000 := by
  have h := c.valid
  unfold UInt32.isValidChar Nat.isValidChar at h
  rw [← Char.toNat_val]
  omega

theorem utf8EncodeChar_eq (c : Char) :
    String.utf8EncodeChar c = .ofNat (lead c.toNat) :: digits c.toNat (following c.toNat) := by
  have hc := toNat_lt c
  simp only [String.utf8EncodeChar, Char.toNat_val, lead, following]
  generalize c.toNat = n at hc
  split_ifs <;> simp only [digits, mark, Nat.reducePow, Nat.div_one, Nat.add_zero]
  · rw [Nat.mod_eq_of_lt (by omega : n / 64 < 32)]
  · rw [Nat.mod_eq_of_lt (by omega : n / 4096 < 16)]
  · rw [Nat.mod_eq_of_lt (by omega : n / 262144 < 8)]

theorem lead_lt (c : Char) : lead c.toNat < 256 := by
  have hc := toNat_lt c
  unfold lead following
  split_ifs <;> simp only [mark, Nat.reducePow] <;> omega

/-! ## Order of characters -/

/-- A smaller number has the smaller quotient, or the same one and the smaller remainder. -/
theorem div_lt_or {m n : Nat} (h : m < n) (b : Nat) :
    m / b < n / b ∨ m / b = n / b ∧ m % b < n % b := by
  rcases Nat.lt_or_eq_of_le (Nat.div_le_div_right (c := b) (Nat.le_of_lt h)) with hlt | heq
  · exact .inl hlt
  · have hm := Nat.div_add_mod m b
    have hn := Nat.div_add_mod n b
    rw [heq] at hm
    exact .inr ⟨heq, by omega⟩

/-- Code points are in the order of their first bytes, and then in that of the digits that follow. -/
theorem lead_lt_or {m n : Nat} (h : m < n) : lead m < lead n ∨
    lead m = lead n ∧ following m = following n ∧
      m % 64 ^ following m < n % 64 ^ following m := by
  by_cases hf : following m = following n
  · unfold lead
    rw [hf]
    rcases div_lt_or h (64 ^ following n) with hlt | ⟨heq, hlt⟩
    · exact .inl (Nat.add_lt_add_right hlt _)
    · exact .inr ⟨by rw [heq], rfl, hlt⟩
  · -- The marks leave no overlap between first bytes that are followed by different numbers of bytes.
    left
    unfold lead
    unfold following at hf ⊢
    split_ifs at hf ⊢ <;> simp only [mark, Nat.reducePow] <;> omega

theorem cons_lt_cons {a b : Nat} {x y : List UInt8} (hb : b < 256) (h : a < b ∨ a = b ∧ x < y) :
    UInt8.ofNat a :: x < UInt8.ofNat b :: y := by
  rcases h with h | ⟨rfl, h⟩
  · refine List.cons_lt_cons_iff.2 (.inl ?_)
    rw [UInt8.lt_iff_toNat_lt, UInt8.toNat_ofNat', UInt8.toNat_ofNat']
    omega
  · exact List.cons_lt_cons_iff.2 (.inr ⟨rfl, h⟩)

theorem digits_append_lt {m n k : Nat} (h : m % 64 ^ k < n % 64 ^ k) (x y : List UInt8) :
    digits m k ++ x < digits n k ++ y := by
  induction k with
  | zero =>
    rw [Nat.pow_zero, Nat.mod_one, Nat.mod_one] at h
    exact absurd h (Nat.lt_irrefl 0)
  | succ k ih =>
    refine cons_lt_cons (by omega) ?_
    have hsplit := div_lt_or h (64 ^ k)
    rw [Nat.pow_succ, Nat.mod_mul_right_div_self, Nat.mod_mul_right_div_self,
      Nat.mod_mul_right_mod, Nat.mod_mul_right_mod] at hsplit
    rcases hsplit with hlt | ⟨heq, hlt⟩
    · exact .inl (Nat.add_lt_add_right hlt _)
    · exact .inr ⟨by rw [heq], ih hlt⟩

/-- The bytes of two characters decide which one is the later, whatever stands behind them. -/
theorem utf8EncodeChar_append_lt {c d : Char} (h : c < d) (x y : List UInt8) :
    String.utf8EncodeChar c ++ x < String.utf8EncodeChar d ++ y := by
  rw [utf8EncodeChar_eq, utf8EncodeChar_eq]
  refine cons_lt_cons (lead_lt d) ?_
  rcases lead_lt_or (m := c.toNat) (n := d.toNat) h with hlt | ⟨heq, hf, hlt⟩
  · exact .inl hlt
  · exact .inr ⟨heq, hf ▸ digits_append_lt hlt x y⟩

/-! ## Order of texts -/

theorem bytes_eq (s : String) : bytes s = s.toList.flatMap String.utf8EncodeChar := by
  have hs : s.toUTF8 = s.toList.utf8Encode := by
    rw [String.toUTF8_eq_toByteArray, ← String.toByteArray_ofList, String.ofList_toList]
  rw [bytes, hs, List.utf8Encode, List.data_toByteArray]

theorem flatMap_utf8EncodeChar_lt {l l' : List Char} (h : l < l') :
    l.flatMap String.utf8EncodeChar < l'.flatMap String.utf8EncodeChar := by
  induction h with
  | nil =>
    rw [List.flatMap_nil, List.flatMap_cons, utf8EncodeChar_eq]
    exact .nil
  | rel h =>
    rw [List.flatMap_cons, List.flatMap_cons]
    exact utf8EncodeChar_append_lt h _ _
  | cons _ ih =>
    rw [List.flatMap_cons, List.flatMap_cons]
    exact List.append_left_lt ih

/-- Texts are in the order of their bytes. -/
theorem bytes_lt_iff {s t : String} : bytes s < bytes t ↔ s < t := by
  have hmono : ∀ {s t : String}, s < t → bytes s < bytes t := fun h => by
    rw [bytes_eq, bytes_eq]
    exact flatMap_utf8EncodeChar_lt h
  refine ⟨fun h => Decidable.byContradiction fun hst => ?_, hmono⟩
  by_cases hts : t < s
  · exact List.lt_asymm h (hmono hts)
  · rw [String.le_antisymm (String.not_lt.1 hts) (String.not_lt.1 hst)] at h
    exact List.lt_irrefl _ h

theorem pairwise_map_bytes {texts : List String} :
    (texts.map bytes).Pairwise (· < ·) ↔ texts.Pairwise (· < ·) := by
  simp only [List.pairwise_map, bytes_lt_iff]

end SystemdControl.Utf8
