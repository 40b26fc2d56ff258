/-!
# Bytes as text

Reading of bytes as UTF-8 in which ill-formed parts are kept visible: each longest start of a character that is not completed, and
each byte that starts none, becomes one replacement character.
-/

namespace DispatchTree.Text

/-- The character that stands for ill-formed bytes. -/
def replacement : Char := '�'

/-- Whether a byte lies between two bounds. -/
def within (low high b : UInt8) : Bool := low ≤ b && b ≤ high

/-- Whether a byte continues a character. -/
def continues (b : UInt8) : Bool := within 0x80 0xbf b

/-- The bounds of the second byte of a character of three bytes. -/
def secondOfThree (lead b : UInt8) : Bool :=
  if lead = 0xe0 then within 0xa0 0xbf b
  else if lead = 0xed then within 0x80 0x9f b
  else within 0xe1 0xef lead && continues b

/-- The bounds of the second byte of a character of four bytes. -/
def secondOfFour (lead b : UInt8) : Bool :=
  if lead = 0xf0 then within 0x90 0xbf b
  else if lead = 0xf4 then within 0x80 0x8f b
  else within 0xf1 0xf3 lead && continues b

/-- The lower bits of a byte. -/
def lowBits (b : UInt8) (n : Nat) : Nat := b.toNat % (1 <<< n)

/-- The characters of bytes, ill-formed parts replaced. -/
def decodeChars : List UInt8 → List Char
  | [] => []
  | a :: rest =>
    if a < 0x80 then Char.ofNat a.toNat :: decodeChars rest
    else if within 0xc2 0xdf a then
      match rest with
      | b :: rest' =>
        if continues b then Char.ofNat (lowBits a 5 * 64 + lowBits b 6) :: decodeChars rest'
        else replacement :: decodeChars (b :: rest')
      | [] => [replacement]
    else if within 0xe0 0xef a then
      match rest with
      | b :: c :: rest' =>
        if !secondOfThree a b then replacement :: decodeChars (b :: c :: rest')
        else if continues c then
          Char.ofNat (lowBits a 4 * 4096 + lowBits b 6 * 64 + lowBits c 6) :: decodeChars rest'
        else replacement :: decodeChars (c :: rest')
      | [b] => if secondOfThree a b then [replacement] else replacement :: decodeChars [b]
      | [] => [replacement]
    else if within 0xf0 0xf4 a then
      match rest with
      | b :: c :: d :: rest' =>
        if !secondOfFour a b then replacement :: decodeChars (b :: c :: d :: rest')
        else if !continues c then replacement :: decodeChars (c :: d :: rest')
        else if continues d then
          Char.ofNat (lowBits a 3 * 262144 + lowBits b 6 * 4096 + lowBits c 6 * 64 + lowBits d 6) :: decodeChars rest'
        else replacement :: decodeChars (d :: rest')
      | [b, c] =>
        if !secondOfFour a b then replacement :: decodeChars [b, c]
        else if continues c then [replacement]
        else replacement :: decodeChars [c]
      | [b] => if secondOfFour a b then [replacement] else replacement :: decodeChars [b]
      | [] => [replacement]
    else replacement :: decodeChars rest
termination_by bs => bs.length

/-- The text of bytes without a byte order mark at the start, ill-formed parts replaced. -/
def decodeLossy (bytes : ByteArray) : String :=
  let bs := match bytes.toList with
    | 0xef :: 0xbb :: 0xbf :: rest => rest
    | bs => bs
  String.ofList (decodeChars bs)

end DispatchTree.Text
