import PlacedText.Stream.Buffered
import PlacedText.Stream.Decoded
import PlacedText.Stream.Memory
import PlacedText.Stream.Script

/-!
# Devices

A device is one of the streams of characters that can be opened: text in memory, a scripted stream
of characters, or the decoding of bytes.  Bytes come from memory, or else from a file or a scripted
stream, which are read through a buffer.
-/

namespace PlacedText

/-- A stream of characters of any kind that can be opened. -/
inductive Device where
  | memory (m : Memory CodePoint)
  | script (s : Script CodePoint)
  | bytes (d : Decoded (Memory UInt8))
  | file (d : Decoded (Buffered (Memory UInt8)))
  | raw (d : Decoded (Buffered (Script UInt8)))

namespace Device

/-- A result about a part of a device as one about the device. -/
def embed {σ α : Type} (wrap : σ → Device) :
    EStateM.Result Fault σ α → EStateM.Result Fault Device α
  | .ok a s => .ok a (wrap s)
  | .error e s => .error e (wrap s)

/-- Reads as the stream in question does. -/
def read (n : Nat) : EStateM Fault Device (Answer CodePoint)
  | .memory m => embed .memory (InputStream.read n m)
  | .script s => embed .script (InputStream.read n s)
  | .bytes d => embed .bytes (InputStream.read n d)
  | .file d => embed .file (InputStream.read n d)
  | .raw d => embed .raw (InputStream.read n d)

/-- Closes the stream in question. -/
def close : EStateM Fault Device Unit
  | .memory m => embed .memory (InputStream.close m)
  | .script s => embed .script (InputStream.close s)
  | .bytes d => embed .bytes (InputStream.close d)
  | .file d => embed .file (InputStream.close d)
  | .raw d => embed .raw (InputStream.close d)

/-- A bound on the characters still to come. -/
def supply : Device → Nat
  | .memory m => FiniteStream.supply m
  | .script s => FiniteStream.supply s
  | .bytes d => FiniteStream.supply d
  | .file d => FiniteStream.supply d
  | .raw d => FiniteStream.supply d

theorem eq_ok_of_embed {σ α : Type} {wrap : σ → Device} {x : EStateM.Result Fault σ α} {a : α}
    {d : Device} (h : embed wrap x = .ok a d) : ∃ s, x = .ok a s ∧ d = wrap s := by
  cases x with
  | ok b s => cases h; exact ⟨s, rfl, rfl⟩
  | error e s => cases h

instance : FiniteStream CodePoint Device where
  read := read
  close := close
  supply := supply
  supply_read {n s s' a} h := by
    cases s <;> obtain ⟨t, ht, rfl⟩ := eq_ok_of_embed h <;> exact FiniteStream.supply_read ht

end Device

end PlacedText
