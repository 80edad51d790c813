import Groundplan.Text.Utf8

/-!
# Names of files

A disk holds names as bytes. A text is stored as its UTF-8 encoding, and a byte that belongs to no
character is written as a surrogate of its own, so that every name on a disk can be told. Two texts
that are stored as the same bytes name the same file. Of a text with any other surrogate, or with a
null character, nothing can be asked.
-/

namespace Groundplan.FileName

/-- Whether a surrogate stands for one byte of a name. -/
def isByteSurrogate (n : Nat) : Bool :=
  0xdc80 ≤ n && n ≤ 0xdcff

/-- The bytes that store a code point. -/
def pointBytes (n : Nat) : List UInt8 :=
  if isByteSurrogate n then [UInt8.ofNat (n - 0xdc00)] else String.utf8EncodeChar (Char.ofNat n)

def bytes (name : String) : List UInt8 :=
  (Text.points name).flatMap pointBytes

def size (name : String) : Nat :=
  if name.toList.any Text.isReserved then (bytes name).length else name.utf8ByteSize

/-- The code points by which stored bytes are told; `fuel` bounds their number. -/
def toldPoints : Nat → List UInt8 → List Nat
  | 0, _ => []
  | _, [] => []
  | fuel + 1, b :: bs =>
    match Text.utf8Plan? b with
    | some (wanted, low, high) =>
      if Text.continued wanted low high bs = wanted then
        (Text.utf8Char b (bs.take wanted)).toNat :: toldPoints fuel (bs.drop wanted)
      else (0xdc00 + b.toNat) :: toldPoints fuel bs
    | none => (0xdc00 + b.toNat) :: toldPoints fuel bs

/-- The name by which a disk tells a file that was given another one stored in the same way. -/
def stored (name : String) : String :=
  if Text.hasSurrogate name then
    Text.ofPoints (toldPoints (bytes name).length (bytes name))
  else name

/-- A name without surrogates is told as it was given. -/
theorem stored_eq_self {name : String} (h : Text.hasSurrogate name = false) :
    stored name = name := by
  unfold stored
  rw [h]
  rfl

/-- The first surrogates that stand for no byte; `position` is that of the first code point. -/
def firstFault? (position : Nat) : List Nat → Option Text.EncodeFault
  | [] => none
  | n :: ns =>
    if Text.isSurrogate n && !isByteSurrogate n then
      some ⟨n, position, position + (ns.takeWhile Text.isSurrogate).length⟩
    else firstFault? (position + 1) ns

/-- Why a name cannot be stored, if it cannot. -/
def fault? (name : String) : Option Text.EncodeFault :=
  if Text.hasSurrogate name then firstFault? 0 (Text.points name) else none

def hasNull (name : String) : Bool :=
  name.toList.any fun c => c.toNat = 0

/-- Whether something can be asked about what a name is given to. -/
def isAskable (name : String) : Bool :=
  (fault? name).isNone && !hasNull name

end Groundplan.FileName
