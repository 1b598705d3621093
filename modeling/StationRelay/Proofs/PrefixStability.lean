import StationRelay.Browser.Protocol
import StationRelay.Device.Protocol
import StationRelay.Proofs.FrameStream
import StationRelay.Proofs.PacketFormat

/-!
# Verdicts that more bytes do not change

A reader that has an answer other than "incomplete" looks at nothing behind the
bytes it has.  `Uplink.decode_append` says so of packets and
`Frame.decode_append` of frames; `Device.handle_append` and
`Browser.handle_append` say so of a call of an engine.
-/

namespace StationRelay

/-- More bytes change no answer but "incomplete". -/
theorem Uplink.decode_append {bytes : Bytes} (more : Bytes)
    (settled : ∀ needed available, decode bytes ≠ .error (.incomplete needed available)) :
    decode (bytes ++ more) = decode bytes := by
  rw [← decode_format] at settled ⊢
  rw [← decode_format]
  exact lawful.decode_append more settled

namespace Device

theorem handle_append {directory : Directory} {hub : Hub} {engine : Engine} {buffer : Bytes}
    (more : Bytes)
    (settled : (handle directory hub engine buffer).verdict ≠ .indeterminate) :
    handle directory hub engine (buffer ++ more) = handle directory hub engine buffer := by
  by_cases closed : engine.state = .closed
  · rw [handle, handle, if_pos closed, if_pos closed]
  · have decoded : Uplink.decode (buffer ++ more) = Uplink.decode buffer := by
      apply Uplink.decode_append
      intro needed available incomplete
      rw [handle, if_neg closed, incomplete] at settled
      exact settled rfl
    rw [handle, handle, if_neg closed, if_neg closed, decoded]

end Device

namespace Browser

theorem handle_append {directory : Directory} {hub : Hub} {engine : Engine} {buffer : Bytes}
    (more : Bytes)
    (settled : (handle directory hub engine buffer).verdict ≠ .indeterminate) :
    handle directory hub engine (buffer ++ more) = handle directory hub engine buffer := by
  have decoded : Frame.decode engine.maxPayload (buffer ++ more) =
      Frame.decode engine.maxPayload buffer := by
    apply Frame.decode_append
    intro needed available incomplete
    rw [handle, incomplete] at settled
    exact settled rfl
  rw [handle, handle, decoded]

end Browser

end StationRelay
