import TypeLineage.Json.Reader

/-!
# What readings give

A reading *gives* a value from some bytes to others if, wherever the first are all that is left, it
ends with the value and the second are all that is left then. How many bytes lie behind makes no
difference to that. Readings in a row give what they give one after the other.
-/

namespace TypeLineage.Json

variable {α β : Type} {value : α} {bytes before after behind : List UInt8}

/-- Where these bytes are left, the reading has this value and leaves those. -/
def Gives (reading : Reading α) (before : List UInt8) (value : α) (after : List UInt8) : Prop :=
  ∀ read, ∃ read', reading.run ⟨before, read⟩ = .ok (value, ⟨after, read'⟩)

namespace Gives

theorem pure : Gives (Pure.pure value) bytes value bytes :=
  fun read => ⟨read, rfl⟩

theorem bind {reading : Reading α} {next : α → Reading β} {result : β}
    (first : Gives reading before value after) (rest : Gives (next value) after result behind) :
    Gives (reading >>= next) before result behind := by
  intro read
  obtain ⟨read₁, ran⟩ := first read
  obtain ⟨read₂, ran'⟩ := rest read₁
  refine ⟨read₂, ?_⟩
  rw [StateT.run_bind, ran]
  exact ran'

/-- A reading that depends on where it starts. -/
theorem get_bind {next : Cursor → Reading α}
    (rest : ∀ read, Gives (next ⟨before, read⟩) before value after) :
    Gives (get >>= next) before value after :=
  fun read => rest read read

theorem peek? : Gives Reading.peek? bytes bytes.head? bytes :=
  fun read => ⟨read, rfl⟩

theorem skip (count : Nat) : Gives (Reading.skip count) bytes () (bytes.drop count) :=
  fun _ => ⟨_, rfl⟩

theorem next? {byte : UInt8} : Gives Reading.next? (byte :: bytes) (some byte) bytes :=
  fun _ => ⟨_, rfl⟩

end Gives

end TypeLineage.Json
