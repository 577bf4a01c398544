import FiniteAutomata.Text.Hexadecimal

namespace FiniteAutomata
namespace Text

/-!
# UTF-8

`encode` writes a text in octets and `decode` reads octets as a text.  The
reader holds, between octets, what the lead octet of the current character
still asks for.  It refuses at the first octet that no character can continue
with, and then names the octets of the broken character read so far; a text
that ends inside a character is refused for the octets of that character.
-/

inductive DecodingReason where
  | invalidStart
  | invalidContinuation
  | unexpectedEnd
deriving DecidableEq, Repr

/-- The broken character: the positions of its octets, from `start` to before
`stop`, and its lead octet. -/
structure DecodingFault where
  start : Nat
  stop : Nat
  lead : UInt8
  reason : DecodingReason
deriving DecidableEq, Repr

/-- A character of which the lead octet has been read: how many octets are
still owed, between which bounds the next one lies, and the code point
gathered so far. -/
structure PartialChar where
  start : Nat
  lead : UInt8
  owed : Nat
  low : UInt8
  high : UInt8
  code : Nat
deriving DecidableEq, Repr

/-- What a lead octet of a longer character asks for.  The bounds of the
second octet exclude overlong forms, surrogates and code points past the
last. -/
def PartialChar.ofLead? (start : Nat) (lead : UInt8) : Option PartialChar :=
  let code := lead.toNat
  if 0xC2 ≤ code ∧ code ≤ 0xDF then some ⟨start, lead, 1, 0x80, 0xBF, code - 0xC0⟩
  else if code = 0xE0 then some ⟨start, lead, 2, 0xA0, 0xBF, 0⟩
  else if code = 0xED then some ⟨start, lead, 2, 0x80, 0x9F, 13⟩
  else if 0xE1 ≤ code ∧ code ≤ 0xEF then some ⟨start, lead, 2, 0x80, 0xBF, code - 0xE0⟩
  else if code = 0xF0 then some ⟨start, lead, 3, 0x90, 0xBF, 0⟩
  else if 0xF1 ≤ code ∧ code ≤ 0xF3 then some ⟨start, lead, 3, 0x80, 0xBF, code - 0xF0⟩
  else if code = 0xF4 then some ⟨start, lead, 3, 0x80, 0x8F, 4⟩
  else none

/-- The text of octets from a position on, after a character begun before. -/
def decodeFrom (position : Nat) :
    Option PartialChar → List UInt8 → Except DecodingFault (List Char)
  | none, [] => .ok []
  | some open_, [] => .error ⟨open_.start, position, open_.lead, .unexpectedEnd⟩
  | none, octet :: rest =>
    if octet.toNat < 0x80 then
      (decodeFrom (position + 1) none rest).map (Char.ofNat octet.toNat :: ·)
    else
      match PartialChar.ofLead? position octet with
      | some begun => decodeFrom (position + 1) (some begun) rest
      | none => .error ⟨position, position + 1, octet, .invalidStart⟩
  | some open_, octet :: rest =>
    if open_.low ≤ octet ∧ octet ≤ open_.high then
      let code := open_.code * 64 + (octet.toNat - 0x80)
      if open_.owed ≤ 1 then
        (decodeFrom (position + 1) none rest).map (Char.ofNat code :: ·)
      else
        decodeFrom (position + 1)
          (some { open_ with owed := open_.owed - 1, low := 0x80, high := 0xBF, code := code }) rest
    else
      .error ⟨open_.start, position, open_.lead, .invalidContinuation⟩

def decode (octets : List UInt8) : Except DecodingFault (List Char) :=
  decodeFrom 0 none octets

def encodeChar (c : Char) : List UInt8 :=
  let code := c.toNat
  let tail (shift : Nat) : UInt8 := UInt8.ofNat (0x80 + code / shift % 64)
  if code < 0x80 then [UInt8.ofNat code]
  else if code < 0x800 then [UInt8.ofNat (0xC0 + code / 64), tail 1]
  else if code < 0x10000 then [UInt8.ofNat (0xE0 + code / 4096), tail 64, tail 1]
  else [UInt8.ofNat (0xF0 + code / 262144), tail 4096, tail 64, tail 1]

def encode (text : List Char) : List UInt8 :=
  text.flatMap encodeChar

def DecodingReason.message : DecodingReason → String
  | .invalidStart => "invalid start byte"
  | .invalidContinuation => "invalid continuation byte"
  | .unexpectedEnd => "unexpected end of data"

/-- The fault in words: the broken octet, or the positions of the broken
octets from the first to the last. -/
def DecodingFault.message (fault : DecodingFault) : String :=
  let place :=
    if fault.stop = fault.start + 1 then
      "byte 0x" ++ String.ofList (hexDigits 2 fault.lead.toNat) ++ " in position " ++
        toString fault.start
    else
      "bytes in position " ++ toString fault.start ++ "-" ++ toString (fault.stop - 1)
  "'utf-8' codec can't decode " ++ place ++ ": " ++ fault.reason.message

/-- A fault read in pieces: a character that the text ends inside of is held
back until the end is known, and its positions then count from itself. -/
def DecodingFault.inPieces (fault : DecodingFault) : DecodingFault :=
  match fault.reason with
  | .unexpectedEnd => { fault with start := 0, stop := fault.stop - fault.start }
  | _ => fault

end Text
end FiniteAutomata
