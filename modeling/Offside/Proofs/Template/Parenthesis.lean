import Offside.Proofs.Template.Condition

/-! The parenthesis that closes another one. A reader that takes a text character by character knows
which of them stand in quotes, and counts the parentheses that do not. The one that closes is where
its count first comes back to nothing, and it stays so when the text between is trimmed and put
between parentheses again. -/
namespace Offside.Test

open Text

variable {d : Int} {q : Option Char} {s t inside after : Text} {c : Char} {o k : Nat}

/-! ## Counting -/

/-- Where a character stands: outside of quotes, in a literal that ends at `q`, or behind a
backslash in one. -/
inductive Place
  | code
  | quoted (q : Char)
  | hidden (q : Char)
deriving DecidableEq, Repr

namespace Place

/-- The place behind a character. -/
def next : Place → Char → Place
  | code, c => if isQuote c then quoted c else code
  | quoted q, c => if c = '\\' then hidden q else if c = q then code else quoted q
  | hidden q, _ => quoted q

/-- What a character adds to the number of open parentheses. -/
def weight : Place → Char → Int
  | code, c => if c = '(' then 1 else if c = ')' then -1 else 0
  | _, _ => 0

/-- The place behind a text. -/
def behind (w : Place) (s : Text) : Place := s.foldl next w

/-- How many more parentheses a text opens than it closes. -/
def depth : Place → Text → Int
  | _, [] => 0
  | w, c :: s => w.weight c + (w.next c).depth s

/-- The place in a literal, or outside of all if there is none. -/
def within : Option Char → Place
  | none => code
  | some q => quoted q

variable {w : Place}

@[simp] theorem behind_nil : w.behind [] = w := rfl

@[simp] theorem behind_cons : w.behind (c :: s) = (w.next c).behind s := rfl

@[simp] theorem depth_nil : w.depth [] = 0 := rfl

@[simp] theorem depth_cons : w.depth (c :: s) = w.weight c + (w.next c).depth s := rfl

theorem depth_append (w : Place) (s t : Text) :
    w.depth (s ++ t) = w.depth s + (w.behind s).depth t := by
  induction s generalizing w with
  | nil => simp
  | cons c s ih => simp [ih, Int.add_assoc]

end Place

/-- With `d` parentheses open in front of a text, no prefix of it closes more than that. -/
def StaysOpen (d : Int) (w : Place) (s : Text) : Prop := ∀ p, p <+: s → 0 ≤ d + w.depth p

theorem staysOpen_nil {w : Place} : StaysOpen d w [] ↔ 0 ≤ d := by
  simp [StaysOpen]

theorem staysOpen_cons {w : Place} :
    StaysOpen d w (c :: s) ↔ 0 ≤ d ∧ StaysOpen (d + w.weight c) (w.next c) s := by
  constructor
  · intro h
    refine ⟨by simpa using h [] List.nil_prefix, fun p hp => ?_⟩
    have hcons := h (c :: p) (List.cons_prefix_cons.mpr ⟨rfl, hp⟩)
    rwa [Place.depth_cons, ← Int.add_assoc] at hcons
  · rintro ⟨hd, h⟩ p hp
    rcases List.prefix_cons_iff.mp hp with rfl | ⟨p', rfl, hp'⟩
    · simpa using hd
    · rw [Place.depth_cons, ← Int.add_assoc]
      exact h p' hp'

/-- Every parenthesis outside of quotes has its partner, and no quote is left open. -/
structure Balanced (s : Text) : Prop where
  staysOpen : StaysOpen 0 .code s
  depth_eq : Place.code.depth s = 0
  behind_eq : Place.code.behind s = .code

/-! ## What closes -/

theorem weight_of_isQuote (h : isQuote c = true) : Place.code.weight c = 0 := by
  have hopen : c ≠ '(' := by rintro rfl; cases h
  have hclose : c ≠ ')' := by rintro rfl; cases h
  simp [Place.weight, hopen, hclose]

/-- Behind a text that closes all parentheses but one, the reader is outside of quotes and has
counted them. -/
theorem Closes.counted {n : Nat} (h : Closes n q s) :
    StaysOpen n (.within q) s ∧ (n : Int) + (Place.within q).depth s = 0 ∧
      (Place.within q).behind s = .code := by
  induction h with
  | done => simp [staysOpen_nil, Place.within]
  | escaped _ ih => simpa [staysOpen_cons, Place.within, Place.next, Place.weight] using ih
  | unquote hq _ ih => simpa [staysOpen_cons, Place.within, Place.next, Place.weight, hq] using ih
  | quoted hc hq _ ih =>
    simpa [staysOpen_cons, Place.within, Place.next, Place.weight, hc, hq] using ih
  | quote hc _ ih =>
    simpa [staysOpen_cons, Place.within, Place.next, weight_of_isQuote hc, hc] using ih
  | opened _ ih =>
    simpa [staysOpen_cons, Place.within, Place.next, Place.weight, isQuote, Int.add_assoc] using ih
  | @closed n s _ ih =>
    have hback : (n : Int) + 1 + -1 = n := by omega
    have hopen : (0 : Int) ≤ n + 1 := by omega
    simpa [staysOpen_cons, Place.within, Place.next, Place.weight, isQuote, ← Int.add_assoc, hback,
      hopen] using ih
  | plain hq ho hp _ ih =>
    simpa [staysOpen_cons, Place.within, Place.next, Place.weight, hq, ho, hp] using ih

theorem Closes.balanced (h : Closes 0 none s) : Balanced s where
  staysOpen := h.counted.1
  depth_eq := by simpa [Place.within] using h.counted.2.1
  behind_eq := h.counted.2.2

/-- Where nothing closes, no prefix comes back to nothing. -/
theorem staysOpen_of_closeAt {n : Nat} (h : closeAt n q s = none) :
    StaysOpen n (.within q) s := by
  fun_induction closeAt n q s with
  | case1 => simp [staysOpen_nil]
  | case2 n c q hc =>
    obtain rfl := beq_iff_eq.mp hc
    simp [staysOpen_cons, staysOpen_nil, Place.within, Place.weight]
  | case3 n c _ q hc e s ih =>
    obtain rfl := beq_iff_eq.mp hc
    simpa [staysOpen_cons, Place.within, Place.next, Place.weight] using
      ih (Option.map_eq_none_iff.mp (Option.map_eq_none_iff.mp h))
  | case4 n c s _ q hc hq ih =>
    obtain rfl := beq_iff_eq.mp hq
    have hslash : c ≠ '\\' := by simpa using hc
    simpa [staysOpen_cons, Place.within, Place.next, Place.weight, hslash] using
      ih (Option.map_eq_none_iff.mp h)
  | case5 n c s _ q hc hq ih =>
    have hslash : c ≠ '\\' := by simpa using hc
    have hend : c ≠ q := by simpa using hq
    simpa [staysOpen_cons, Place.within, Place.next, Place.weight, hslash, hend] using
      ih (Option.map_eq_none_iff.mp h)
  | case6 n c s _ hc ih =>
    simpa [staysOpen_cons, Place.within, Place.next, weight_of_isQuote hc, hc] using
      ih (Option.map_eq_none_iff.mp h)
  | case7 n c s _ hc ho ih =>
    obtain rfl := beq_iff_eq.mp ho
    simpa [staysOpen_cons, Place.within, Place.next, Place.weight, hc] using
      ih (Option.map_eq_none_iff.mp h)
  | case8 => cases h
  | case9 c s _ hc ho hp n ih =>
    obtain rfl := beq_iff_eq.mp hp
    have hback : (n : Int) + 1 + -1 = n := by omega
    have hopen : (0 : Int) ≤ n + 1 := by omega
    simpa [staysOpen_cons, Place.within, Place.next, Place.weight, hc, hback, hopen] using
      ih (Option.map_eq_none_iff.mp h)
  | case10 n c s _ hc ho hp ih =>
    have hopen : c ≠ '(' := by simpa using ho
    have hclose : c ≠ ')' := by simpa using hp
    simpa [staysOpen_cons, Place.within, Place.next, Place.weight, hc, hopen, hclose] using
      ih (Option.map_eq_none_iff.mp h)

theorem depth_closed (h : Balanced s) (t : Text) :
    Place.code.depth (s ++ ')' :: t) = -1 + Place.code.depth t := by
  have hnext : Place.code.next ')' = .code := rfl
  have hweight : Place.code.weight ')' = -1 := rfl
  rw [Place.depth_append, h.depth_eq, h.behind_eq, Place.depth_cons, hnext, hweight, Int.zero_add]

/-- Parentheses are balanced in a text just if one in front of it is closed right behind it. -/
theorem balanced_iff_closes : Balanced s ↔ Closes 0 none s := by
  refine ⟨fun h => ?_, Closes.balanced⟩
  have hdepth := depth_closed h []
  cases hclose : closeAt 0 none (s ++ [')']) with
  | none =>
    have hopen := staysOpen_of_closeAt hclose _ List.prefix_rfl
    simp [Place.within, hdepth] at hopen
  | some r =>
    obtain ⟨inside, after⟩ := r
    obtain ⟨hcloses, hwrite⟩ := closes_of_closeAt hclose
    rcases List.eq_nil_or_concat after with rfl | ⟨more, c, rfl⟩
    · rwa [List.append_cancel_right hwrite]
    · -- a parenthesis in the text would close the one in front of it
      have hprefix : inside ++ [')'] <+: s := by
        have hcut : s ++ [')'] = (inside ++ ')' :: more) ++ [c] := by simp [hwrite]
        rw [(List.append_inj' hcut rfl).1]
        exact ⟨more, by simp⟩
      have hopen := h.staysOpen _ hprefix
      rw [depth_closed hcloses.balanced] at hopen
      simp at hopen

/-! ## Where it closes -/

/-- The place in a text of the parenthesis that closes the one at `o`. -/
def closing? (t : Text) (o : Nat) : Option Nat :=
  (enclosed? (t.drop o)).map fun (inside, _) => o + 1 + inside.length

theorem drop_eq_cons (ho : t[o]? = some c) : t.drop o = c :: t.drop (o + 1) := by
  obtain ⟨hlt, rfl⟩ := List.getElem?_eq_some_iff.mp ho
  exact List.drop_eq_getElem_cons hlt

/-- Reading an enclosed text at the start of a text. -/
theorem enclosed?_eq_some_iff : enclosed? ('(' :: s) = some (inside, after) ↔
    Balanced inside ∧ s = inside ++ ')' :: after := by
  rw [enclosed?, balanced_iff_closes]
  refine ⟨closes_of_closeAt, ?_⟩
  rintro ⟨h, rfl⟩
  exact closeAt_of_closes h after

/-- The closing parenthesis is the one behind a balanced text. -/
theorem closing?_eq_some_iff (ho : t[o]? = some '(') : closing? t o = some k ↔
    o < k ∧ t[k]? = some ')' ∧ Balanced (slice t (o + 1) k) := by
  rw [closing?, drop_eq_cons ho]
  constructor
  · intro h
    obtain ⟨⟨inside, after⟩, hread, hk⟩ := Option.map_eq_some_iff.mp h
    obtain rfl : o + 1 + inside.length = k := hk
    obtain ⟨hbalanced, hwrite⟩ := enclosed?_eq_some_iff.mp hread
    have hlength : o + 1 + inside.length - (o + 1) = inside.length := by omega
    refine ⟨by omega, ?_, ?_⟩
    · rw [← List.getElem?_drop, hwrite]
      simp
    · rwa [slice, hlength, hwrite, List.take_left]
  · rintro ⟨hlt, hk, hbalanced⟩
    have hplace : o + 1 + (k - (o + 1)) = k := by omega
    have hwrite : t.drop (o + 1) = slice t (o + 1) k ++ ')' :: t.drop (k + 1) := by
      have hrest : (t.drop (o + 1)).drop (k - (o + 1)) = ')' :: t.drop (k + 1) := by
        rw [List.drop_drop, hplace, drop_eq_cons hk]
      rw [slice, ← hrest, List.take_append_drop]
    have hlength : (slice t (o + 1) k).length = k - (o + 1) := by
      have hbound := (List.getElem?_eq_some_iff.mp hk).1
      rw [slice, List.length_take, List.length_drop]
      omega
    rw [enclosed?_eq_some_iff.mpr ⟨hbalanced, hwrite⟩]
    simp [hlength, hplace]

/-- No parenthesis closes the one at `o` just if it is open behind every prefix. -/
theorem closing?_eq_none_iff (ho : t[o]? = some '(') : closing? t o = none ↔
    ∀ p, p <+: t.drop o → p ≠ [] → 0 < Place.code.depth p := by
  have hweight : Place.code.weight '(' = 1 := rfl
  have hnext : Place.code.next '(' = .code := rfl
  rw [closing?, Option.map_eq_none_iff, drop_eq_cons ho]
  constructor
  · intro hnone p hp hne
    rcases List.prefix_cons_iff.mp hp with rfl | ⟨p', rfl, hp'⟩
    · exact absurd rfl hne
    · have hopen := staysOpen_of_closeAt hnone p' hp'
      rw [Place.depth_cons, hweight, hnext]
      simp only [Place.within, Int.natCast_zero] at hopen
      omega
  · intro hopen
    by_contra hsome
    obtain ⟨⟨inside, after⟩, hread⟩ := Option.ne_none_iff_exists'.mp hsome
    obtain ⟨hbalanced, hwrite⟩ := enclosed?_eq_some_iff.mp hread
    have hprefix : '(' :: (inside ++ [')']) <+: '(' :: t.drop (o + 1) := ⟨after, by simp [hwrite]⟩
    have hdepth := hopen _ hprefix (List.cons_ne_nil _ _)
    rw [Place.depth_cons, hweight, hnext, depth_closed hbalanced] at hdepth
    simp at hdepth

theorem Balanced.trim (h : Balanced s) : Balanced (trim s) :=
  balanced_iff_closes.mpr (balanced_iff_closes.mp h).trim

/-- The parenthesis that closes another one is the one behind a balanced text, and that text,
trimmed and put between parentheses, is enclosed again whatever follows. If there is none, every
prefix leaves the parenthesis open. -/
theorem closing?_exact (ho : t[o]? = some '(') :
    (∀ k, closing? t o = some k ↔ o < k ∧ t[k]? = some ')' ∧ Balanced (slice t (o + 1) k)) ∧
    (∀ k, closing? t o = some k → ∀ s, closing? ('(' :: trim (slice t (o + 1) k) ++ ')' :: s) 0 =
      some ((trim (slice t (o + 1) k)).length + 1)) ∧
    (closing? t o = none ↔ ∀ p, p <+: t.drop o → p ≠ [] → 0 < Place.code.depth p) := by
  refine ⟨fun k => closing?_eq_some_iff ho, fun k hk s => ?_, closing?_eq_none_iff ho⟩
  obtain ⟨-, -, hbalanced⟩ := (closing?_eq_some_iff ho).mp hk
  have hread : enclosed? ('(' :: (trim (slice t (o + 1) k) ++ ')' :: s)) =
      some (trim (slice t (o + 1) k), s) := enclosed?_eq_some_iff.mpr ⟨hbalanced.trim, rfl⟩
  rw [closing?, List.drop_zero, List.cons_append, hread]
  simp [Nat.add_comm]

/-- A test between blanks, with a parenthesis and an escaped quote in literals. -/
def quotedParenthesis : Text := "@if ( f(\")\", 'it\\'s') ) p".toList

theorem closing?_exact_quotedParenthesis :
    quotedParenthesis[4]? = some '(' ∧ closing? quotedParenthesis 4 = some 22 ∧
      Balanced (slice quotedParenthesis 5 22) ∧
      ∀ s, closing? ('(' :: "f(\")\", 'it\\'s')".toList ++ ')' :: s) 0 = some 16 := by
  have ho : quotedParenthesis[4]? = some '(' := by decide +kernel
  have hk : closing? quotedParenthesis 4 = some 22 := by decide +kernel
  have htrim : trim (slice quotedParenthesis 5 22) = "f(\")\", 'it\\'s')".toList := by
    decide +kernel
  have hlength : "f(\")\", 'it\\'s')".toList.length = 15 := by decide +kernel
  obtain ⟨hsome, hagain, -⟩ := closing?_exact ho
  refine ⟨ho, hk, ((hsome 22).mp hk).2.2, fun s => ?_⟩
  have henclosed := hagain 22 hk s
  rwa [htrim, hlength] at henclosed

end Offside.Test
