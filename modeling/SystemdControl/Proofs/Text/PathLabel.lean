import SystemdControl.Text.PathLabel

/-!
# Labels determine names

A label is the labels of the bytes of a name, one after the other, and each of these can be told
from what follows: it is a letter or a digit, or an underscore with the two digits of the byte
behind it. So a label is read from left to right without looking ahead.

* `PathLabel.plain_char` and `PathLabel.hexValue?_digitChar` are about single characters;
* `PathLabel.decode_encode` and `PathLabel.toName?_ofName`: a label is read back;
* `PathLabel.encode_alphabet` and `PathLabel.encode_head` say which characters a label has;
* `PathLabel.encode_eq_append_underscore`: what an underscore of a label stands for.
-/

namespace SystemdControl.PathLabel

/-! ## Single characters -/

/-- A byte that stands for itself is an ASCII letter or digit, and a digit only after the first
place. -/
theorem plain_char {first : Bool} {b : UInt8} (h : isPlain first b = true) :
    (Char.ofNat b.toNat).isAlphanum = true ∧
      ((Char.ofNat b.toNat).isDigit = true → first = false) ∧
      UInt8.ofNat (Char.ofNat b.toNat).toNat = b := by
  have hall : ∀ n < 256, ∀ first, isPlain first (.ofNat n) = true →
      (Char.ofNat (UInt8.ofNat n).toNat).isAlphanum = true ∧
        ((Char.ofNat (UInt8.ofNat n).toNat).isDigit = true → first = false) ∧
        UInt8.ofNat (Char.ofNat (UInt8.ofNat n).toNat).toNat = .ofNat n := by
    decide +kernel
  have hb := hall b.toNat b.toNat_lt first
  rw [UInt8.ofNat_toNat] at hb
  exact hb h

theorem ne_underscore {c : Char} (h : c.isAlphanum = true) : c ≠ '_' := by
  rintro rfl
  exact absurd h (by decide)

/-- The lower-case hexadecimal digits in the order of their values. -/
def hexDigits : List Char :=
  "0123456789abcdef".toList

theorem getElem?_hexDigits : ∀ n < 16, hexDigits[n]? = some (Nat.digitChar n) := by
  decide

theorem hexValue?_digitChar : ∀ n < 16, hexValue? (Nat.digitChar n) = some n := by
  decide

theorem digitChar_isAlphanum : ∀ n < 16, (Nat.digitChar n).isAlphanum = true := by
  decide

theorem high_lt (b : UInt8) : b.toNat / 16 < 16 := by
  have := b.toNat_lt
  omega

theorem low_lt (b : UInt8) : b.toNat % 16 < 16 :=
  Nat.mod_lt _ (by decide)

/-! ## Reading back

Labels of bytes are told apart by their first characters, and so one after the other is taken off
the front, whatever stands behind it. -/

theorem decode_cons {c : Char} (h : c ≠ '_') (rest : List Char) :
    decode (c :: rest) = (decode rest).map (.ofNat c.toNat :: ·) := by
  rw [decode.eq_def]
  split <;> simp_all

theorem decode_underscore (b : UInt8) (rest : List Char) :
    decode ('_' :: Nat.digitChar (b.toNat / 16) :: Nat.digitChar (b.toNat % 16) :: rest) =
      (decode rest).map (b :: ·) := by
  have hb : UInt8.ofNat (16 * (b.toNat / 16) + b.toNat % 16) = b := by
    rw [Nat.div_add_mod, UInt8.ofNat_toNat]
  rw [decode, hexValue?_digitChar _ (high_lt b), hexValue?_digitChar _ (low_lt b)]
  show (decode rest).bind _ = _
  rw [hb]
  cases decode rest <;> rfl

theorem decode_encodeByte (first : Bool) (b : UInt8) (rest : List Char) :
    decode (encodeByte first b ++ rest) = (decode rest).map (b :: ·) := by
  unfold encodeByte
  split
  · rename_i h
    obtain ⟨halphanum, -, hb⟩ := plain_char h
    rw [List.singleton_append, decode_cons (ne_underscore halphanum), hb]
  · exact decode_underscore b rest

theorem decode_flatMap (bytes : List UInt8) :
    decode (bytes.flatMap (encodeByte false)) = some bytes := by
  induction bytes with
  | nil => rfl
  | cons b bytes ih => rw [List.flatMap_cons, decode_encodeByte, ih, Option.map_some]

/-- The bytes of a label are the ones that it was made of. -/
theorem decode_encode (bytes : List UInt8) : decode (encode bytes) = some bytes := by
  cases bytes with
  | nil => rfl
  | cons b bytes => rw [encode, decode_encodeByte, decode_flatMap, Option.map_some]

/-- The name that a label stands for. -/
def toName? (label : String) : Option String :=
  (decode label.toList).bind fun bytes => String.fromUTF8? ⟨bytes.toArray⟩

theorem toName?_ofName (name : String) : toName? (ofName name) = some name := by
  have hname : String.fromUTF8? name.toUTF8 = some name := by
    rw [String.toUTF8_eq_toByteArray, String.fromUTF8?, dif_pos name.isValidUTF8]
    rfl
  rw [toName?, ofName, String.toList_ofList, decode_encode]
  exact hname

/-! ## The shape of a label -/

theorem encodeByte_alphabet (first : Bool) (b : UInt8) :
    ∀ c ∈ encodeByte first b, c.isAlphanum = true ∨ c = '_' := by
  unfold encodeByte
  split
  · rename_i h
    simpa using .inl (plain_char h).1
  · simp [digitChar_isAlphanum _ (high_lt b), digitChar_isAlphanum _ (low_lt b)]

/-- A label has no characters but ASCII letters, digits and underscores. -/
theorem encode_alphabet (bytes : List UInt8) :
    ∀ c ∈ encode bytes, c.isAlphanum = true ∨ c = '_' := by
  cases bytes with
  | nil => simp [encode]
  | cons b bytes =>
    intro c hc
    rcases List.mem_append.1 hc with hc | hc
    · exact encodeByte_alphabet true b c hc
    · obtain ⟨b', -, hc⟩ := List.mem_flatMap.1 hc
      exact encodeByte_alphabet false b' c hc

theorem encodeByte_ne_nil (first : Bool) (b : UInt8) : encodeByte first b ≠ [] := by
  unfold encodeByte
  split <;> exact List.cons_ne_nil _ _

theorem encode_eq_nil_iff {bytes : List UInt8} : encode bytes = [] ↔ bytes = [] := by
  cases bytes with
  | nil => simp [encode]
  | cons b bytes => simp [encode, encodeByte_ne_nil]

/-- A label does not start with a digit. -/
theorem encode_head (bytes : List UInt8) : ∀ c ∈ (encode bytes).head?, c.isDigit = false := by
  cases bytes with
  | nil => simp [encode]
  | cons b bytes =>
    rw [encode, encodeByte]
    split
    · rename_i h
      obtain ⟨-, hdigit, -⟩ := plain_char h
      simpa using hdigit
    · simp

theorem cons_eq_append_underscore {c : Char} {cs front rest : List Char} (hc : c ≠ '_')
    (h : c :: cs = front ++ '_' :: rest) :
    ∃ front', front = c :: front' ∧ cs = front' ++ '_' :: rest := by
  rcases List.cons_eq_append_iff.1 h with ⟨-, h⟩ | h
  · exact absurd (List.cons.inj h).1.symm hc
  · exact h

/-- An underscore in the label of a byte and what follows is the first character of the former, or
belongs to the latter. -/
theorem encodeByte_append_eq {first : Bool} {b : UInt8} {tail front rest : List Char}
    (h : encodeByte first b ++ tail = front ++ '_' :: rest) :
    (front = [] ∧ rest = Nat.digitChar (b.toNat / 16) :: Nat.digitChar (b.toNat % 16) :: tail) ∨
      ∃ front', front = encodeByte first b ++ front' ∧ tail = front' ++ '_' :: rest := by
  unfold encodeByte at h ⊢
  split at h
  · rename_i hplain
    obtain ⟨halphanum, -, -⟩ := plain_char hplain
    rw [if_pos hplain]
    exact .inr (cons_eq_append_underscore (ne_underscore halphanum) h)
  · rename_i hplain
    rw [if_neg hplain]
    have hhigh := ne_underscore (digitChar_isAlphanum _ (high_lt b))
    have hlow := ne_underscore (digitChar_isAlphanum _ (low_lt b))
    -- Of the three characters only the first one is an underscore.
    rcases List.cons_eq_append_iff.1 h with ⟨hfront, h⟩ | ⟨front₁, rfl, h₁⟩
    · exact .inl ⟨hfront, (List.cons.inj h).2⟩
    · obtain ⟨front₂, rfl, h₂⟩ := cons_eq_append_underscore hhigh h₁
      obtain ⟨front₃, rfl, h₃⟩ := cons_eq_append_underscore hlow h₂
      exact .inr ⟨front₃, rfl, h₃⟩

theorem flatMap_eq_append_underscore {bytes : List UInt8} {front rest : List Char}
    (h : bytes.flatMap (encodeByte false) = front ++ '_' :: rest) :
    ∃ before b after, bytes = before ++ b :: after ∧ front = before.flatMap (encodeByte false) ∧
      rest = Nat.digitChar (b.toNat / 16) :: Nat.digitChar (b.toNat % 16) ::
        after.flatMap (encodeByte false) := by
  induction bytes generalizing front with
  | nil => simp at h
  | cons b bytes ih =>
    rw [List.flatMap_cons] at h
    rcases encodeByte_append_eq h with ⟨rfl, hrest⟩ | ⟨front', rfl, htail⟩
    · exact ⟨[], b, bytes, rfl, rfl, hrest⟩
    · obtain ⟨before, b', after, rfl, rfl, hrest⟩ := ih htail
      exact ⟨b :: before, b', after, rfl, rfl, hrest⟩

/-- An underscore of a label stands, with the two digits behind it, for one byte: what is before it
is the label of the bytes before that one, and what follows the digits stands for the others. -/
theorem encode_eq_append_underscore {bytes : List UInt8} {front rest : List Char}
    (h : encode bytes = front ++ '_' :: rest) :
    ∃ before b after, bytes = before ++ b :: after ∧ front = encode before ∧
      rest = Nat.digitChar (b.toNat / 16) :: Nat.digitChar (b.toNat % 16) ::
        after.flatMap (encodeByte false) := by
  cases bytes with
  | nil => simp [encode] at h
  | cons b bytes =>
    rcases encodeByte_append_eq h with ⟨rfl, hrest⟩ | ⟨front', rfl, htail⟩
    · exact ⟨[], b, bytes, rfl, rfl, hrest⟩
    · obtain ⟨before, b', after, rfl, rfl, hrest⟩ := flatMap_eq_append_underscore htail
      exact ⟨b :: before, b', after, rfl, rfl, hrest⟩

end SystemdControl.PathLabel
