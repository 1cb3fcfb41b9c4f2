import Offside.Json
import Offside.Proofs.Text.Quoted

/-! Reading data from a text. The reader takes blanks between the signs and any spelling of a text,
so it reads more than is written. What is written stays on one line and is read back. -/
namespace Offside.Json

open Text

variable {s t rest : Text} {c : Char} {n fuel : Nat} {j : Json}

/-! ## The reader -/

def isGap (c : Char) : Bool := c == ' ' || c == '\t' || c == '\n' || c == '\r'

def skipGap (s : Text) : Text := s.dropWhile isGap

/-- What makes a number more than an integer. -/
def goesOn (c : Char) : Bool := c == '.' || c == 'e' || c == 'E'

/-- Reads digits, of which the first is no zero unless it is the only one. -/
def readNatural (s : Text) : Option (Nat × Text) :=
  let digits := s.takeWhile Char.isDigit
  let rest := s.dropWhile Char.isDigit
  if digits.isEmpty || (digits.head? == some '0' && digits.length != 1) ||
      rest.head?.any goesOn then
    none
  else some (Nat.ofDigitChars 10 digits 0, rest)

def readPlain : Text → Option (Json × Text)
  | 'n' :: 'u' :: 'l' :: 'l' :: s => some (null, s)
  | 't' :: 'r' :: 'u' :: 'e' :: s => some (boolean true, s)
  | 'f' :: 'a' :: 'l' :: 's' :: 'e' :: s => some (boolean false, s)
  | '-' :: s => (readNatural s).map fun (n, rest) => (integer (-n), rest)
  | s => (readNatural s).map fun (n, rest) => (integer n, rest)

mutual

/-- Reads data at the start of a text, and gives it with what stands behind it. Whatever nests or
follows in it is read with less fuel. -/
def readData : Nat → Text → Option (Json × Text)
  | 0, _ => none
  | fuel + 1, s =>
    match skipGap s with
    | '"' :: s => (readQuoted ('"' :: s)).map fun (value, rest) => (text value, rest)
    | '[' :: s =>
      match skipGap s with
      | ']' :: rest => some (list [], rest)
      | s => (readItems fuel s).map fun (items, rest) => (list items, rest)
    | '{' :: s =>
      match skipGap s with
      | '}' :: rest => some (object [], rest)
      | s => (readMembers fuel s).map fun (members, rest) => (object members, rest)
    | s => readPlain s

def readItems : Nat → Text → Option (List Json × Text)
  | 0, _ => none
  | fuel + 1, s =>
    (readData fuel s).bind fun (item, s) =>
      match skipGap s with
      | ',' :: s => (readItems fuel s).map fun (items, rest) => (item :: items, rest)
      | ']' :: rest => some ([item], rest)
      | _ => none

def readMembers : Nat → Text → Option (List (Text × Json) × Text)
  | 0, _ => none
  | fuel + 1, s =>
    (readQuoted (skipGap s)).bind fun (name, s) =>
      match skipGap s with
      | ':' :: s =>
        (readData fuel s).bind fun (value, s) =>
          match skipGap s with
          | ',' :: s =>
            (readMembers fuel s).map fun (members, rest) => ((name, value) :: members, rest)
          | '}' :: rest => some ([(name, value)], rest)
          | _ => none
      | _ => none

end

/-- The data that a text is, with blanks around it. -/
def read? (s : Text) : Option Json :=
  (readData (s.length + 1) s).bind fun (j, rest) => if (skipGap rest).isEmpty then some j else none

theorem ne_of_isDigit {x : Char} (h : c.isDigit = true) (hx : x.isDigit = false) : c ≠ x := by
  rintro rfl
  simp [hx] at h

theorem skipGap_cons (h : isGap c = false) (s : Text) : skipGap (c :: s) = c :: s :=
  List.dropWhile_cons_of_neg (by simp [h])

@[simp] theorem skipGap_space (s : Text) : skipGap (' ' :: s) = skipGap s := rfl

/-! ## Numbers -/

/-- Only the number zero starts with a zero. -/
theorem head?_ofNat (h : (ofNat n).head? = some '0') : n = 0 := by
  induction n using Nat.strongRecOn with
  | ind n ih =>
    by_cases hsmall : n < 10
    · rw [ofNat, Nat.toDigits_of_lt_base hsmall] at h
      simpa using h
    · have hcut : ofNat n = ofNat (n / 10) ++ [(n % 10).digitChar] :=
        Nat.toDigits_of_base_le (by decide) (by omega)
      have hne : ofNat (n / 10) ≠ [] := Nat.toDigits_ne_nil
      rw [hcut, List.head?_append_of_ne_nil _ hne] at h
      have := ih (n / 10) (by omega) h
      omega

theorem isDigit_of_mem_ofNat (h : c ∈ ofNat n) : c.isDigit = true :=
  Nat.isDigit_of_mem_toDigits (by decide) (by decide) h

/-- What may stand behind data: the end of a list or of an object, or the next one in it. -/
def Stops (s : Text) : Prop := ∀ c ∈ s.head?, c = ',' ∨ c = ']' ∨ c = '\x7d'

theorem stops_nil : Stops [] := nofun

theorem stops_cons (h : c = ',' ∨ c = ']' ∨ c = '\x7d') : Stops (c :: s) := by
  simpa [Stops] using h

/-- A natural number is read up to where its digits stop. -/
theorem readNatural_ofNat (n : Nat) (h : Stops rest) :
    readNatural (ofNat n ++ rest) = some (n, rest) := by
  have hdigits : ∀ c ∈ ofNat n, c.isDigit = true := fun c hc => isDigit_of_mem_ofNat hc
  have hstop : ∀ c ∈ rest.head?, c.isDigit = false ∧ goesOn c = false := by
    intro c hc
    rcases h c hc with rfl | rfl | rfl <;> decide
  have hcut : rest.takeWhile Char.isDigit = [] ∧ rest.dropWhile Char.isDigit = rest := by
    cases rest with
    | nil => exact ⟨rfl, rfl⟩
    | cons c rest => simp [hstop c rfl]
  have hzero : (ofNat n).head? = some '0' → (ofNat n).length = 1 := by
    intro hhead
    rw [head?_ofNat hhead]
    rfl
  have hnumber : Nat.ofDigitChars 10 (ofNat n) 0 = n := Nat.ofDigitChars_ten_toDigits
  have hne : ofNat n ≠ [] := Nat.toDigits_ne_nil
  have hwhole : rest.head?.any goesOn = false := by
    cases hhead : rest.head? with
    | none => rfl
    | some c => exact (hstop c hhead).2
  rw [readNatural, List.takeWhile_append_of_pos hdigits, List.dropWhile_append_of_pos hdigits,
    hcut.1, hcut.2, List.append_nil, hnumber]
  simpa [hne, hwhole] using hzero

/-- An integer starts with a sign or a digit. -/
theorem exists_ofInt (i : Int) : ∃ c s, ofInt i = c :: s ∧ (c = '-' ∨ c.isDigit = true) := by
  cases i with
  | ofNat n =>
    have hne : ofNat n ≠ [] := Nat.toDigits_ne_nil
    obtain ⟨c, s, hcut⟩ := List.exists_cons_of_ne_nil hne
    exact ⟨c, s, hcut, Or.inr (isDigit_of_mem_ofNat (n := n) (by simp [hcut]))⟩
  | negSucc n => exact ⟨'-', ofNat (n + 1), rfl, Or.inl rfl⟩

/-- What starts with a digit is no word. -/
theorem readPlain_of_isDigit (h : c.isDigit = true) (s : Text) :
    readPlain (c :: s) = (readNatural (c :: s)).map fun (n, rest) => (integer n, rest) := by
  rw [readPlain.eq_def]
  split
  · next hc => exact (ne_of_isDigit h rfl (List.cons.inj hc).1).elim
  · next hc => exact (ne_of_isDigit h rfl (List.cons.inj hc).1).elim
  · next hc => exact (ne_of_isDigit h rfl (List.cons.inj hc).1).elim
  · next hc => exact (ne_of_isDigit h rfl (List.cons.inj hc).1).elim
  · rfl

/-- A whole number is read up to where its digits stop. -/
theorem readPlain_ofInt (i : Int) (h : Stops rest) :
    readPlain (ofInt i ++ rest) = some (integer i, rest) := by
  cases i with
  | ofNat n =>
    have hread := readNatural_ofNat n h
    have hne : ofNat n ≠ [] := Nat.toDigits_ne_nil
    obtain ⟨c, s, hcut⟩ := List.exists_cons_of_ne_nil hne
    have hdigit : c.isDigit = true := isDigit_of_mem_ofNat (n := n) (by simp [hcut])
    rw [hcut, List.cons_append] at hread
    rw [ofInt, hcut, List.cons_append, readPlain_of_isDigit hdigit, hread]
    rfl
  | negSucc n =>
    rw [ofInt, List.cons_append, readPlain, readNatural_ofNat _ h]
    rfl

/-! ## Reading what is written -/

/-- Data is written from a character that is no blank and ends no list. -/
theorem exists_write (j : Json) : ∃ c s, j.write = c :: s ∧ isGap c = false ∧ c ≠ ']' := by
  have hword : ∀ {c : Char} {s : Text}, isGap c = false ∧ c ≠ ']' →
      ∃ c' s', c :: s = c' :: s' ∧ isGap c' = false ∧ c' ≠ ']' :=
    fun h => ⟨_, _, rfl, h⟩
  cases j with
  | null => exact hword (c := 'n') (by decide)
  | boolean b => cases b <;> exact hword (by decide)
  | integer i =>
    obtain ⟨c, s, hcut, hsign⟩ := exists_ofInt i
    refine ⟨c, s, hcut, ?_⟩
    rcases hsign with rfl | hdigit
    · decide
    · simp [isGap, ne_of_isDigit hdigit]
  | text value => exact hword (c := '"') (by decide)
  | list items => exact hword (c := '[') (by decide)
  | object members => exact hword (c := '\x7b') (by decide)

theorem exists_writeItems (j : Json) (items : List Json) :
    ∃ c s, writeItems (j :: items) = c :: s ∧ isGap c = false ∧ c ≠ ']' := by
  obtain ⟨c, s, hcut, hc⟩ := exists_write j
  cases items with
  | nil => exact ⟨c, s, by rw [writeItems, hcut], hc⟩
  | cons j' items =>
    exact ⟨c, s ++ ',' :: ' ' :: writeItems (j' :: items), by simp [writeItems, hcut], hc⟩

theorem exists_writeMembers (m : Text × Json) (members : List (Text × Json)) :
    ∃ s, writeMembers (m :: members) = '"' :: s := by
  cases members with
  | nil => exact ⟨_, rfl⟩
  | cons m' members => exact ⟨_, rfl⟩

theorem readData_space (fuel : Nat) (s : Text) : readData fuel (' ' :: s) = readData fuel s := by
  cases fuel with
  | zero => rfl
  | succ fuel => rw [readData, readData, skipGap_space]

theorem readItems_space (fuel : Nat) (s : Text) : readItems fuel (' ' :: s) = readItems fuel s := by
  cases fuel with
  | zero => rfl
  | succ fuel => rw [readItems, readItems, readData_space]

theorem readMembers_space (fuel : Nat) (s : Text) :
    readMembers fuel (' ' :: s) = readMembers fuel s := by
  cases fuel with
  | zero => rfl
  | succ fuel => rw [readMembers, readMembers, skipGap_space]

/-- A whole number is data. -/
theorem readData_integer (i : Int) (h : Stops rest) :
    readData (fuel + 1) (ofInt i ++ rest) = some (integer i, rest) := by
  have hread := readPlain_ofInt i h
  obtain ⟨c, s, hcut, hsign⟩ := exists_ofInt i
  have hplain : isGap c = false ∧ c ≠ '"' ∧ c ≠ '[' ∧ c ≠ '\x7b' := by
    rcases hsign with rfl | hdigit
    · decide
    · simp [isGap, ne_of_isDigit hdigit]
  obtain ⟨hgap, hquote, hlist, hobject⟩ := hplain
  rw [hcut, List.cons_append] at hread ⊢
  rw [readData, skipGap_cons hgap]
  split
  · next hc => exact (hquote (List.cons.inj hc).1).elim
  · next hc => exact (hlist (List.cons.inj hc).1).elim
  · next hc => exact (hobject (List.cons.inj hc).1).elim
  · exact hread

theorem readData_text (value rest : Text) :
    readData (fuel + 1) (quote value ++ rest) = some (text value, rest) := by
  have hread := readQuoted_quote value rest
  obtain ⟨s, hcut⟩ : ∃ s, quote value ++ rest = '"' :: s := ⟨_, rfl⟩
  rw [hcut] at hread ⊢
  rw [readData, skipGap_cons rfl]
  simp [hread]

/-! ### One step -/

theorem readData_list (h : isGap c = false ∧ c ≠ ']') (s : Text) :
    readData (fuel + 1) ('[' :: c :: s) =
      (readItems fuel (c :: s)).map fun (items, rest) => (list items, rest) := by
  rw [readData, skipGap_cons rfl]
  simp [skipGap_cons h.1, h.2]

theorem readData_object (h : isGap c = false ∧ c ≠ '\x7d') (s : Text) :
    readData (fuel + 1) ('\x7b' :: c :: s) =
      (readMembers fuel (c :: s)).map fun (members, rest) => (object members, rest) := by
  rw [readData, skipGap_cons rfl]
  simp [skipGap_cons h.1, h.2]

theorem readItems_last (h : readData fuel s = some (j, ']' :: rest)) :
    readItems (fuel + 1) s = some ([j], rest) := by
  rw [readItems, h]
  rfl

theorem readItems_more (h : readData fuel s = some (j, ',' :: ' ' :: t)) :
    readItems (fuel + 1) s = (readItems fuel t).map fun (items, rest) => (j :: items, rest) := by
  rw [readItems, h, ← readItems_space fuel t]
  rfl

/-- What is read behind the name of a member. -/
theorem readMembers_name (name s : Text) :
    readMembers (fuel + 1) (quote name ++ ':' :: ' ' :: s) =
      (readData fuel s).bind fun (value, s) =>
        match skipGap s with
        | ',' :: s =>
          (readMembers fuel s).map fun (members, rest) => ((name, value) :: members, rest)
        | '\x7d' :: rest => some ([(name, value)], rest)
        | _ => none := by
  have hskip : skipGap (quote name ++ ':' :: ' ' :: s) = quote name ++ ':' :: ' ' :: s := rfl
  rw [readMembers, hskip, readQuoted_quote, ← readData_space fuel s]
  rfl

theorem readMembers_last {name : Text} (h : readData fuel s = some (j, '\x7d' :: rest)) :
    readMembers (fuel + 1) (quote name ++ ':' :: ' ' :: s) = some ([(name, j)], rest) := by
  rw [readMembers_name, h]
  rfl

theorem readMembers_more {name : Text} (h : readData fuel s = some (j, ',' :: ' ' :: t)) :
    readMembers (fuel + 1) (quote name ++ ':' :: ' ' :: s) =
      (readMembers fuel t).map fun (members, rest) => ((name, j) :: members, rest) := by
  rw [readMembers_name, h, ← readMembers_space fuel t]
  rfl

/-! ### A whole text -/

mutual

/-- Data is read back if there is fuel for each of its characters. -/
theorem readData_write : ∀ (j : Json) (fuel : Nat) (rest : Text), j.write.length ≤ fuel →
    Stops rest → readData fuel (j.write ++ rest) = some (j, rest)
  | j, 0, rest, hfuel, hrest => by
    obtain ⟨c, s, hcut, -⟩ := exists_write j
    simp [hcut] at hfuel
  | null, fuel + 1, rest, hfuel, hrest => rfl
  | boolean true, fuel + 1, rest, hfuel, hrest => rfl
  | boolean false, fuel + 1, rest, hfuel, hrest => rfl
  | integer i, fuel + 1, rest, hfuel, hrest => readData_integer i hrest
  | text s, fuel + 1, rest, hfuel, hrest => readData_text s rest
  | list [], fuel + 1, rest, hfuel, hrest => rfl
  | list (j :: items), fuel + 1, rest, hfuel, hrest => by
    obtain ⟨c, s, hcut, hc⟩ := exists_writeItems j items
    have hlength : (list (j :: items)).write.length = (writeItems (j :: items)).length + 2 := by
      simp [write]
    have hread := readItems_write j items fuel rest (by omega)
    have hwrite : (list (j :: items)).write ++ rest =
        '[' :: (writeItems (j :: items) ++ ']' :: rest) := by
      simp [write]
    rw [hcut, List.cons_append] at hread hwrite
    rw [hwrite, readData_list hc, hread]
    rfl
  | object [], fuel + 1, rest, hfuel, hrest => rfl
  | object ((name, value) :: members), fuel + 1, rest, hfuel, hrest => by
    obtain ⟨s, hcut⟩ := exists_writeMembers (name, value) members
    have hlength : (object ((name, value) :: members)).write.length =
        (writeMembers ((name, value) :: members)).length + 2 := by
      simp [write]
    have hread := readMembers_write name value members fuel rest (by omega)
    have hwrite : (object ((name, value) :: members)).write ++ rest =
        '\x7b' :: (writeMembers ((name, value) :: members) ++ '\x7d' :: rest) := by
      simp [write]
    rw [hcut, List.cons_append] at hread hwrite
    rw [hwrite, readData_object (by decide), hread]
    rfl

/-- The items of a list are read up to its closing bracket. -/
theorem readItems_write : ∀ (j : Json) (items : List Json) (fuel : Nat) (rest : Text),
    (writeItems (j :: items)).length < fuel →
    readItems fuel (writeItems (j :: items) ++ ']' :: rest) = some (j :: items, rest)
  | j, items, 0, rest, hfuel => by omega
  | j, [], fuel + 1, rest, hfuel => by
    rw [writeItems] at hfuel ⊢
    exact readItems_last (readData_write j fuel (']' :: rest) (by omega) (stops_cons (by simp)))
  | j, j' :: items, fuel + 1, rest, hfuel => by
    have hwrite : ∀ s, writeItems (j :: j' :: items) ++ s =
        j.write ++ ',' :: ' ' :: (writeItems (j' :: items) ++ s) := by
      simp [writeItems]
    have hlength := congrArg List.length (hwrite [])
    simp only [List.append_nil, List.length_append, List.length_cons] at hlength
    have hread := readData_write j fuel (',' :: ' ' :: (writeItems (j' :: items) ++ ']' :: rest))
      (by omega) (stops_cons (by simp))
    rw [hwrite, readItems_more hread, readItems_write j' items fuel rest (by omega)]
    rfl

/-- The members of an object are read up to its closing brace. -/
theorem readMembers_write : ∀ (name : Text) (value : Json) (members : List (Text × Json))
    (fuel : Nat) (rest : Text), (writeMembers ((name, value) :: members)).length < fuel →
    readMembers fuel (writeMembers ((name, value) :: members) ++ '\x7d' :: rest) =
      some ((name, value) :: members, rest)
  | name, value, members, 0, rest, hfuel => by omega
  | name, value, [], fuel + 1, rest, hfuel => by
    have hwrite : ∀ s, writeMembers [(name, value)] ++ s =
        quote name ++ ':' :: ' ' :: (value.write ++ s) := by
      simp [writeMembers]
    have hlength := congrArg List.length (hwrite [])
    simp only [List.append_nil, List.length_append, List.length_cons] at hlength
    rw [hwrite]
    exact readMembers_last
      (readData_write value fuel ('\x7d' :: rest) (by omega) (stops_cons (by simp)))
  | name, value, (name', value') :: members, fuel + 1, rest, hfuel => by
    have hwrite : ∀ s, writeMembers ((name, value) :: (name', value') :: members) ++ s =
        quote name ++ ':' :: ' ' ::
          (value.write ++ ',' :: ' ' :: (writeMembers ((name', value') :: members) ++ s)) := by
      simp [writeMembers]
    have hlength := congrArg List.length (hwrite [])
    simp only [List.append_nil, List.length_append, List.length_cons] at hlength
    have hread := readData_write value fuel
      (',' :: ' ' :: (writeMembers ((name', value') :: members) ++ '\x7d' :: rest)) (by omega)
      (stops_cons (by simp))
    rw [hwrite, readMembers_more hread, readMembers_write name' value' members fuel rest (by omega)]
    rfl

end

/-- The text of data is read as that data. -/
theorem read?_write (j : Json) : read? j.write = some j := by
  have hread := readData_write j (j.write.length + 1) [] (by omega) stops_nil
  rw [List.append_nil] at hread
  rw [read?, hread]
  rfl

/-! ## One line -/

theorem unbroken_ofInt (i : Int) : Unbroken (ofInt i) := by
  have hdigits : ∀ n, Unbroken (ofNat n) := fun n c hc =>
    have hdigit := isDigit_of_mem_ofNat hc
    ⟨ne_of_isDigit hdigit rfl, ne_of_isDigit hdigit rfl⟩
  cases i with
  | ofNat n => exact hdigits n
  | negSucc n => exact unbroken_cons.mpr ⟨by decide, hdigits (n + 1)⟩

mutual

/-- The text of data is on one line. -/
theorem unbroken_write : ∀ j : Json, Unbroken j.write
  | null => by simp [write, Unbroken]
  | boolean true => by simp [write, Unbroken]
  | boolean false => by simp [write, Unbroken]
  | integer i => unbroken_ofInt i
  | text s => unbroken_quote s
  | list items => by
    have hitems := unbroken_writeItems items
    simp [write, unbroken_cons, unbroken_append, unbroken_nil, hitems]
  | object members => by
    have hmembers := unbroken_writeMembers members
    simp [write, unbroken_cons, unbroken_append, unbroken_nil, hmembers]

theorem unbroken_writeItems : ∀ items : List Json, Unbroken (writeItems items)
  | [] => unbroken_nil
  | [j] => unbroken_write j
  | j :: j' :: items => by
    have hitems := unbroken_writeItems (j' :: items)
    simp [writeItems, unbroken_cons, unbroken_append, unbroken_write j, hitems]

theorem unbroken_writeMembers : ∀ members : List (Text × Json), Unbroken (writeMembers members)
  | [] => unbroken_nil
  | [(name, value)] => by
    simp [writeMembers, unbroken_cons, unbroken_append, unbroken_quote name, unbroken_write value]
  | (name, value) :: m :: members => by
    have hmembers := unbroken_writeMembers (m :: members)
    simp [writeMembers, unbroken_cons, unbroken_append, unbroken_quote name, unbroken_write value,
      hmembers]

end

end Offside.Json
