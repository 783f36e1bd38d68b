/-
# Formats of sound

Key definitions: `AudioFormat`, `AudioFormat.bytesPerFrame`, `AudioFormat.duration?`.
-/
import Raop.Duration
import Raop.Sdp.Alac

namespace Raop

/-- Frames per second, samples per frame and bits per sample. -/
structure AudioFormat where
  sampleRate : UInt32
  channels : UInt8
  bits : UInt8
  deriving DecidableEq, Repr, Inhabited

namespace AudioFormat

/-- The format of a compact disc. -/
def compactDisc : AudioFormat := ⟨44100, 2, 16⟩

/-- The format that a lossless stream decodes to. -/
def ofAlac (p : AlacParameters) : AudioFormat := ⟨p.sampleRate, p.channels, p.bitDepth⟩

/-- The octets of a frame, each sample filled up to whole octets. -/
def bytesPerFrame (f : AudioFormat) : Nat := (f.bits.toNat + 7) / 8 * f.channels.toNat

/-- The time that a number of frames takes: none at a rate of zero, and nothing if it does not fit. -/
def duration? (f : AudioFormat) (frames : UInt64) : Option Duration :=
  if f.sampleRate = 0 then some ⟨0, 0⟩
  else Duration.ofSeconds? (frames.toFloat / f.sampleRate.toFloat)

end AudioFormat
end Raop
