import Mathlib.Logic.Function.Basic

/-!
# Encoders of a decoder

A decoder may reject its input; an encoder of it writes what the decoder reads back. Several encoders
can share one decoder.
-/

universe u v

/-- A way to write what `decode` reads back. -/
structure Encoder {Message : Type u} {Wire : Type v} (decode : Wire → Option Message) where
  encode : Message → Wire
  decode_encode : ∀ message, decode (encode message) = some message
