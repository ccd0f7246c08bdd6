import Blocklist.Text.Quoted

/-! # Surrogates that cannot be encoded

An encoding writes characters, and a surrogate that is not part of a pair is none. What is said when
one is met tells the encoding, the surrogate and its place.
-/

namespace Blocklist.Text

/-- Surrogates that an encoding cannot write: the first one, its place, and how many follow it. -/
structure EncodeFault where
  encoding : Text
  offset : Fin 0x800
  position : Nat
  more : Nat
  deriving Repr, DecidableEq

/-- A single surrogate is shown with its code, several only with their positions. -/
def EncodeFault.message (f : EncodeFault) : Text :=
  let subject :=
    if f.more = 0 then
      "character '".toText ++ Quoted.escapeCode (CodePoint.surrogate f.offset).toNat ++
        "' in position ".toText ++ ofCount f.position
    else
      "characters in position ".toText ++ ofCount f.position ++ .char '-' ::
        ofCount (f.position + f.more)
  "'".toText ++ f.encoding ++ "' codec can't encode ".toText ++ subject ++
    ": surrogates not allowed".toText

end Blocklist.Text
