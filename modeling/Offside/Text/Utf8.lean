import Offside.Text.Basic

/-!
Text from bytes in the eight-bit encoding form. A byte that starts no character, or a beginning of a
character that does not go on, is a fault; the reader goes on behind it.
-/
namespace Offside.Text.Utf8

/-- What a byte that can start a character asks for: its own bits, and the ranges of the bytes that
have to follow. -/
structure Lead where
  bits : Nat
  followers : List (Nat × Nat)

/-- Any byte that continues a character. -/
def anyFollower : Nat × Nat := (0x80, 0xBF)

/-- What a first byte asks for. The second byte keeps out long forms, surrogates and numbers beyond
the last character. -/
def lead? (b : Nat) : Option Lead :=
  if b < 0x80 then some ⟨b, []⟩
  else if 0xC2 ≤ b && b ≤ 0xDF then some ⟨b - 0xC0, [anyFollower]⟩
  else if b == 0xE0 then some ⟨0, [(0xA0, 0xBF), anyFollower]⟩
  else if b == 0xED then some ⟨0xD, [(0x80, 0x9F), anyFollower]⟩
  else if 0xE1 ≤ b && b ≤ 0xEF then some ⟨b - 0xE0, [anyFollower, anyFollower]⟩
  else if b == 0xF0 then some ⟨0, [(0x90, 0xBF), anyFollower, anyFollower]⟩
  else if 0xF1 ≤ b && b ≤ 0xF3 then some ⟨b - 0xF0, [anyFollower, anyFollower, anyFollower]⟩
  else if b == 0xF4 then some ⟨4, [(0x80, 0x8F), anyFollower, anyFollower]⟩
  else none

/-- Reads bytes. `pending` is what the character that has been started needs; a fault is `none`. -/
def units (pending : Option Lead) : List Nat → List (Option Char)
  | [] =>
    match pending with
    | none => []
    | some _ => [none]
  | b :: bs =>
    match pending with
    | some ⟨bits, (low, high) :: followers⟩ =>
      if low ≤ b && b ≤ high then
        let bits := bits * 64 + (b - 0x80)
        if followers.isEmpty then some (Char.ofNat bits) :: units none bs
        else units (some ⟨bits, followers⟩) bs
      else none :: start b (units · bs)
    | _ => start b (units · bs)
where
  /-- Reads a first byte; `go` reads what follows. -/
  start (b : Nat) (go : Option Lead → List (Option Char)) : List (Option Char) :=
    match lead? b with
    | none => none :: go none
    | some ⟨bits, []⟩ => some (Char.ofNat bits) :: go none
    | some more => go (some more)

/-- The text, if there is no fault in the bytes. -/
def decode? (bytes : List Nat) : Option Text := (units none bytes).mapM id

/-- The text with a mark in place of every fault. -/
def decodeAll (bytes : List Nat) : Text := (units none bytes).map (·.getD '\ufffd')

def encodeChar (c : Char) : List Nat :=
  let n := c.toNat
  if n < 0x80 then [n]
  else if n < 0x800 then [0xC0 + n / 64, 0x80 + n % 64]
  else if n < 0x10000 then [0xE0 + n / 4096, 0x80 + n / 64 % 64, 0x80 + n % 64]
  else [0xF0 + n / 262144, 0x80 + n / 4096 % 64, 0x80 + n / 64 % 64, 0x80 + n % 64]

def encode (s : Text) : List Nat := s.flatMap encodeChar

end Offside.Text.Utf8
