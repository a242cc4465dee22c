/-!
# UTF-8

`encode` writes a text as bytes.  `decodeLossy` reads any bytes: a piece that is
the beginning of no character, cut as long as some character begins with it,
becomes one U+FFFD.  `decode?` reads the bytes of a text and refuses all others.
-/

namespace Polarity.Text.Utf8

abbrev Bytes := List UInt8

def encode (text : List Char) : Bytes := text.flatMap String.utf8EncodeChar

def ofString (text : String) : Bytes := encode text.toList

def isTail (byte : UInt8) : Bool := 0x80 ≤ byte && byte ≤ 0xBF

def tailBits (byte : UInt8) : Nat := byte.toNat % 0x40

def opensThree (lead second : UInt8) : Bool :=
  if lead = 0xE0 then 0xA0 ≤ second && second ≤ 0xBF
  else if lead = 0xED then 0x80 ≤ second && second ≤ 0x9F
  else 0xE1 ≤ lead && lead ≤ 0xEF && isTail second

def opensFour (lead second : UInt8) : Bool :=
  if lead = 0xF0 then 0x90 ≤ second && second ≤ 0xBF
  else if lead = 0xF4 then 0x80 ≤ second && second ≤ 0x8F
  else 0xF1 ≤ lead && lead ≤ 0xF3 && isTail second

/--
Reads one piece of the bytes `lead :: rest`: a character, or `none` for a piece
that is cut short or out of place.  The second component is what follows it.
-/
def readPiece (lead : UInt8) (rest : Bytes) : Option Char × Bytes :=
  if lead < 0x80 then
    (some (Char.ofNat lead.toNat), rest)
  else if 0xC2 ≤ lead && lead ≤ 0xDF then
    match rest with
    | second :: after =>
        if isTail second then
          (some (Char.ofNat (lead.toNat % 0x20 * 0x40 + tailBits second)), after)
        else
          (none, rest)
    | [] => (none, [])
  else if 0xE0 ≤ lead && lead ≤ 0xEF then
    match rest with
    | second :: third :: after =>
        if !opensThree lead second then
          (none, rest)
        else if isTail third then
          (some (Char.ofNat
            ((lead.toNat % 0x10 * 0x40 + tailBits second) * 0x40 + tailBits third)), after)
        else
          (none, third :: after)
    | [second] => (none, if opensThree lead second then [] else rest)
    | [] => (none, [])
  else if 0xF0 ≤ lead && lead ≤ 0xF4 then
    match rest with
    | second :: third :: fourth :: after =>
        if !opensFour lead second then
          (none, rest)
        else if !isTail third then
          (none, third :: fourth :: after)
        else if isTail fourth then
          (some (Char.ofNat
            (((lead.toNat % 0x08 * 0x40 + tailBits second) * 0x40 + tailBits third) * 0x40
              + tailBits fourth)), after)
        else
          (none, fourth :: after)
    | [second, third] =>
        (none, if !opensFour lead second then rest else if isTail third then [] else [third])
    | [second] => (none, if opensFour lead second then [] else rest)
    | [] => (none, [])
  else
    (none, rest)

theorem readPiece_length (lead : UInt8) (rest : Bytes) :
    (readPiece lead rest).2.length ≤ rest.length := by
  fun_cases readPiece lead rest <;> grind

/-- The pieces of the bytes in order, read onto `seen`, whose last piece stands first. -/
def piecesFrom (seen : List (Option Char)) : Bytes → List (Option Char)
  | [] => seen.reverse
  | lead :: rest =>
      have := readPiece_length lead rest
      piecesFrom ((readPiece lead rest).1 :: seen) (readPiece lead rest).2
termination_by bytes => bytes.length
decreasing_by simp only [List.length_cons]; omega

def pieces (bytes : Bytes) : List (Option Char) := piecesFrom [] bytes

def decodeLossy (bytes : Bytes) : List Char :=
  (pieces bytes).map fun piece => piece.getD '�'

def decode? (bytes : Bytes) : Option (List Char) := (pieces bytes).mapM id

def toStringLossy (bytes : Bytes) : String := String.ofList (decodeLossy bytes)

def toString? (bytes : Bytes) : Option String := (decode? bytes).map String.ofList

end Polarity.Text.Utf8
