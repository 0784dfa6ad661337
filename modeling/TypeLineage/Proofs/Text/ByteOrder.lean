import TypeLineage.Proofs.Text.Bytes
import Mathlib.Data.List.Lex
import Mathlib.Data.String.Basic

/-!
# The order of texts and of their bytes

The first byte of a character tells how many others follow it, and each of these holds six bits of
its number, the highest first. So characters are ordered as their bytes are, whatever comes behind
them (`bytesOf_append_lt`), and texts are ordered as their bytes are (`lt_iff_bytes`).
-/

namespace TypeLineage.Text

open Json

/-! ### The bytes of a character -/

/-- How many bytes follow the first one of a character, given its number. -/
def followers (n : ℕ) : ℕ :=
  if n ≤ 0x7F then 0 else if n ≤ 0x7FF then 1 else if n ≤ 0xFFFF then 2 else 3

/-- What a first byte is marked with, given how many bytes follow it. -/
def mark : ℕ → ℕ
  | 0 => 0
  | 1 => 0xC0
  | 2 => 0xE0
  | _ => 0xF0

/-- The first byte of a character: the bits that the others leave, and the mark. -/
def leader (n : ℕ) : ℕ :=
  n / 64 ^ followers n + mark (followers n)

/-- The last bytes of a character, for six bits each. -/
def trailers : ℕ → ℕ → List UInt8
  | 0, _ => []
  | k + 1, n => UInt8.ofNat (n / 64 ^ k % 64 + 128) :: trailers k n

theorem leader_lt (c : Char) : leader c.toNat < 256 := by
  have bound := toNat_lt c
  unfold leader followers
  split_ifs <;> simp only [mark] <;> omega

theorem bytesOf_eq_leader_cons (c : Char) :
    bytesOf c = UInt8.ofNat (leader c.toNat) :: trailers (followers c.toNat) c.toNat := by
  have bound := toNat_lt c
  -- The bits that a first byte has no room for are not there, as the character is small enough.
  have two (narrow : c.toNat ≤ 0x7FF) : c.toNat / 64 % 32 = c.toNat / 64 :=
    Nat.mod_eq_of_lt (by omega)
  have three (narrow : c.toNat ≤ 0xFFFF) : c.toNat / 4096 % 16 = c.toNat / 4096 :=
    Nat.mod_eq_of_lt (by omega)
  have four : c.toNat / 262144 % 8 = c.toNat / 262144 := Nat.mod_eq_of_lt (by omega)
  have number : c.val.toNat = c.toNat := rfl
  rw [bytesOf_eq_utf8EncodeChar, String.utf8EncodeChar, leader, followers, number]
  split_ifs <;> simp [mark, trailers, *]

/-! ### The order -/

theorem ofNat_lt_ofNat {v w : ℕ} (lt : v < w) (bound : w < 256) :
    UInt8.ofNat v < UInt8.ofNat w := by
  rw [UInt8.lt_iff_toNat_lt, UInt8.toNat_ofNat', UInt8.toNat_ofNat']
  omega

/-- Of two numbers the greater one has the greater first byte, or the first bytes are the same and as
many bytes follow. -/
theorem leader_lt_or {v w : ℕ} (lt : v < w) :
    leader v < leader w ∨
      followers v = followers w ∧ v / 64 ^ followers v = w / 64 ^ followers v := by
  by_cases same : followers v = followers w
  · rcases Nat.lt_or_eq_of_le (Nat.div_le_div_right (c := 64 ^ followers v) lt.le) with
      less | equal
    · left
      rw [leader, leader, ← same]
      exact Nat.add_lt_add_right less _
    · exact .inr ⟨same, equal⟩
  · left
    unfold leader followers
    unfold followers at same
    split_ifs at same ⊢ <;> simp only [mark] <;> omega

/-- Numbers that differ in the lowest bits only are told apart by the bytes for these. -/
theorem trailers_append_lt {k v w : ℕ} (lt : v < w) (same : v / 64 ^ k = w / 64 ^ k)
    (rest rest' : List UInt8) : trailers k v ++ rest < trailers k w ++ rest' := by
  induction k with
  | zero =>
    rw [pow_zero, Nat.div_one, Nat.div_one] at same
    exact absurd same lt.ne
  | succ k ih =>
    rw [pow_succ, ← Nat.div_div_eq_div_mul, ← Nat.div_div_eq_div_mul] at same
    rw [trailers, trailers, List.cons_append, List.cons_append, List.cons_lt_cons_iff]
    rcases Nat.lt_or_eq_of_le (Nat.div_le_div_right (c := 64 ^ k) lt.le) with less | equal
    · left
      exact ofNat_lt_ofNat (by omega) (by omega)
    · right
      exact ⟨by rw [equal], ih equal⟩

/-- Characters are ordered as their bytes are, whatever comes behind them. -/
theorem bytesOf_append_lt {c d : Char} (lt : c < d) (rest rest' : List UInt8) :
    bytesOf c ++ rest < bytesOf d ++ rest' := by
  have lt : c.toNat < d.toNat := lt
  rw [bytesOf_eq_leader_cons, bytesOf_eq_leader_cons, List.cons_append, List.cons_append,
    List.cons_lt_cons_iff]
  rcases leader_lt_or lt with less | ⟨many, same⟩
  · exact .inl (ofNat_lt_ofNat less (leader_lt d))
  · right
    constructor
    · rw [leader, leader, ← many, same]
    · rw [← many]
      exact trailers_append_lt lt same rest rest'

theorem encoded_lt_of_lt {text other : List Char} (lt : text < other) :
    encoded text < encoded other := by
  induction text generalizing other with
  | nil =>
    cases other with
    | nil => exact absurd lt (List.lt_irrefl [])
    | cons d other =>
      rw [encoded_nil, encoded_cons, bytesOf_eq_leader_cons]
      exact List.nil_lt_cons ..
  | cons c text ih =>
    cases other with
    | nil => exact absurd lt (List.not_lt_nil _)
    | cons d other =>
      rw [encoded_cons, encoded_cons]
      rcases List.cons_lt_cons_iff.mp lt with first | ⟨rfl, behind⟩
      · exact bytesOf_append_lt first _ _
      · exact List.Lex.append_left _ (ih behind) _

theorem encoded_lt_iff {text other : List Char} : encoded text < encoded other ↔ text < other := by
  refine ⟨fun lt => ?_, encoded_lt_of_lt⟩
  rcases lt_trichotomy text other with less | rfl | greater
  · exact less
  · exact absurd lt (List.lt_irrefl _)
  · exact absurd (encoded_lt_of_lt greater) (List.lt_asymm lt)

/-- Texts are ordered as their bytes are. -/
theorem lt_iff_bytes {text other : String} :
    text < other ↔ text.toUTF8.toList < other.toUTF8.toList := by
  rw [toList_toUTF8, toList_toUTF8, encoded_lt_iff, String.lt_iff_toList_lt]

theorem le_iff_bytes {text other : String} :
    text ≤ other ↔ text.toUTF8.toList ≤ other.toUTF8.toList := by
  rw [← not_lt, lt_iff_bytes, List.not_lt]

/-- Texts in ascending order of their bytes. -/
def ascending (texts : List String) : List String :=
  texts.mergeSort fun a b => decide (a.toUTF8.toList ≤ b.toUTF8.toList)

end TypeLineage.Text
