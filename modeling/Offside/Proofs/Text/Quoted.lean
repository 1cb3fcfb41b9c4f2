import Offside.Proofs.Text.Lines
import Offside.Text.Literal

/-! Reading a text between double quotes as JSON does. An escape is one or two code units, and a
quoted text, which stays on one line, is read back as the text it was written for. -/
namespace Offside.Text

/-- What a backslash and a character stand for. -/
def escaped? (c : Char) : Option Char :=
  if c == '"' || c == '\\' || c == '/' then some c
  else if c == 'n' then some '\n'
  else if c == 'r' then some '\r'
  else if c == 't' then some '\t'
  else if c == 'f' then some '\x0c'
  else if c == 'b' then some '\x08'
  else none

/-- The number that hexadecimal digits are. -/
def hexNumber? (digits : Text) : Option Nat :=
  digits.foldlM (fun n c => (hexValue? c).map (16 * n + ·)) 0

/-- Puts a number in front of what was read. -/
def consUnit (n : Nat) (read : Option (List Nat × Text)) : Option (List Nat × Text) :=
  read.map fun (ns, rest) => (n :: ns, rest)

/-- Reads up to the quote that ends a text, and gives the numbers of the characters and what stands
behind the quote. A control is never written as it is. -/
def readQuotedUnits : Text → Option (List Nat × Text)
  | [] => none
  | '"' :: s => some ([], s)
  | '\\' :: 'u' :: a :: b :: c :: d :: s =>
    (hexNumber? [a, b, c, d]).bind fun n => consUnit n (readQuotedUnits s)
  | '\\' :: e :: s => (escaped? e).bind fun c => consUnit c.toNat (readQuotedUnits s)
  | c :: s => if c == '\\' || c.toNat < 32 then none else consUnit c.toNat (readQuotedUnits s)

/-- The first half of a character beyond the first plane. -/
def isHighHalf (n : Nat) : Bool := 0xD800 ≤ n && n < 0xDC00

/-- The second half of such a character. -/
def isLowHalf (n : Nat) : Bool := 0xDC00 ≤ n && n < 0xE000

/-- The character of a number, unless it is half of one. -/
def charOf? (n : Nat) : Option Char := if n.isValidChar then some (Char.ofNat n) else none

/-- The text of code units, with two halves as one character. -/
def ofUnits : List Nat → Option Text
  | [] => some []
  | [n] => do
    let c ← charOf? n
    some [c]
  | n :: m :: ns =>
    if isHighHalf n && isLowHalf m then do
      let c ← charOf? (0x10000 + (n - 0xD800) * 0x400 + (m - 0xDC00))
      let s ← ofUnits ns
      some (c :: s)
    else do
      let c ← charOf? n
      let s ← ofUnits (m :: ns)
      some (c :: s)

/-- Reads a text at its opening quote, and gives it with what stands behind it. -/
def readQuoted : Text → Option (Text × Text)
  | '"' :: s => do
    let (ns, rest) ← readQuotedUnits s
    let value ← ofUnits ns
    some (value, rest)
  | _ => none

/-- The text that a text between double quotes stands for. -/
def unquoted? (s : Text) : Option Text := do
  let (value, rest) ← readQuoted s
  if rest.isEmpty then some value else none

variable {value s : Text} {c : Char} {n : Nat}

/-- Each character is read as it was written. -/
theorem readQuotedUnits_quoteChar (c : Char) (s : Text) :
    readQuotedUnits (quoteChar c ++ s) = consUnit c.toNat (readQuotedUnits s) := by
  rw [quoteChar.eq_def]
  iterate 7
    split
    · next h =>
      obtain rfl := beq_iff_eq.mp h
      rfl
  split
  · next hsmall =>
    have hdigits : ∀ n < 32, hexDigits 4 n = ['0', '0', hexDigit (n / 16), hexDigit (n % 16)] ∧
        hexNumber? ['0', '0', hexDigit (n / 16), hexDigit (n % 16)] = some n := by
      decide
    obtain ⟨hwrite, hread⟩ := hdigits c.toNat hsmall
    simp [hwrite, readQuotedUnits, hread]
  · next hquote hslash _ _ _ _ _ hlarge =>
    have hkept : (c == '\\' || decide (c.toNat < 32)) = false := by
      rw [Bool.eq_false_iff.mpr hslash, decide_eq_false hlarge, Bool.or_false]
    rw [beq_iff_eq] at hquote hslash
    simp [readQuotedUnits, hslash, hkept]

theorem readQuotedUnits_append (value s : Text) :
    readQuotedUnits (value.flatMap quoteChar ++ '"' :: s) = some (value.map Char.toNat, s) := by
  induction value with
  | nil => rfl
  | cons c value ih =>
    rw [List.flatMap_cons, List.append_assoc, readQuotedUnits_quoteChar, ih]
    rfl

theorem charOf?_toNat (c : Char) : charOf? c.toNat = some c := by
  have hvalid : c.toNat.isValidChar := c.valid
  rw [charOf?, if_pos hvalid, Char.ofNat_toNat]

/-- No character is half of another one. -/
theorem isHighHalf_toNat (c : Char) : isHighHalf c.toNat = false := by
  have hvalid : c.toNat < 0xD800 ∨ 0xDFFF < c.toNat ∧ c.toNat < 0x110000 := c.valid
  simp only [isHighHalf, Bool.and_eq_false_iff, decide_eq_false_iff_not]
  omega

theorem ofUnits_map (value : Text) : ofUnits (value.map Char.toNat) = some value := by
  induction value with
  | nil => rfl
  | cons c value ih =>
    cases value with
    | nil => simp [ofUnits, charOf?_toNat]
    | cons d value =>
      rw [List.map_cons] at ih
      simp [ofUnits, isHighHalf_toNat, charOf?_toNat, ih]

/-- A quoted text is read as the text, whatever stands behind it. -/
theorem readQuoted_quote (value s : Text) : readQuoted (quote value ++ s) = some (value, s) := by
  have hwrite : quote value ++ s = '"' :: (value.flatMap quoteChar ++ '"' :: s) := by
    simp [quote]
  rw [hwrite, readQuoted, readQuotedUnits_append]
  simp [ofUnits_map]

theorem unquoted?_quote (value : Text) : unquoted? (quote value) = some value := by
  have hread := readQuoted_quote value []
  rw [List.append_nil] at hread
  simp [unquoted?, hread]

theorem unbroken_hexDigits (width n : Nat) : Unbroken (hexDigits width n) := by
  have hdigit : ∀ d < 16, hexDigit d ≠ '\n' ∧ hexDigit d ≠ '\r' := by decide
  induction width generalizing n with
  | zero => exact unbroken_nil
  | succ width ih =>
    rw [hexDigits, unbroken_append]
    exact ⟨ih (n / 16), List.forall_mem_singleton.mpr (hdigit (n % 16) (by omega))⟩

theorem unbroken_quoteChar (c : Char) : Unbroken (quoteChar c) := by
  rw [quoteChar.eq_def]
  iterate 7
    split
    · simp [Unbroken]
  split
  · rw [unbroken_append]
    exact ⟨by simp [Unbroken], unbroken_hexDigits 4 c.toNat⟩
  · next _ _ hfeed hreturn _ _ _ _ =>
    exact List.forall_mem_singleton.mpr ⟨by simpa using hfeed, by simpa using hreturn⟩

/-- A quoted text stays on one line. -/
theorem unbroken_quote (value : Text) : Unbroken (quote value) := by
  rw [quote, List.cons_append, unbroken_cons, unbroken_append, unbroken_flatMap]
  exact ⟨by decide, fun c _ => unbroken_quoteChar c, by simp [Unbroken]⟩

end Offside.Text
