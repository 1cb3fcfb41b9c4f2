import Offside.Proofs.Markup.Run

/-! Markup with expressions and branches, and the nodes that it shows. What stands between the
parentheses of a branch is code and not markup: a text or an expression is one of its own only
between tags. A test, and code between braces, is taken as it stands. -/
namespace Offside.Markup

open Text Ir

/-- Blanks, on any number of lines. -/
def Blanks (g : Text) : Prop := ∀ x ∈ g, isBreak x = true ∨ isLineBlank x = true

/-- Blanks that show nothing between tags, because a line ends in them. -/
def Gap (g : Text) : Prop := Blanks g ∧ ∃ x ∈ g, isBreak x = true

def parenthesized (s : Text) : Text := '(' :: s ++ [')']

/-- A space in front of nodes, if there is to be one. -/
def spaceIf (b : Bool) (ns : List Ir.Node) : List Ir.Node := if b then .text [' '] :: ns else ns

/-- Texts and expressions on one line, where all blanks are shown. -/
inductive LineShows : Text → List Ir.Node → Prop
  | nil : LineShows [] []
  | text {v s : Text} {ns : List Ir.Node} : (∀ x ∈ v, isTextChar x = true) → Unbroken v →
      LineShows s ns → LineShows (v ++ s) (.text v :: ns)
  | quoted {v s : Text} {ns : List Ir.Node} : LineShows s ns →
      LineShows (quotedText v ++ s) (.text v :: ns)
  | expression {e s : Text} {ns : List Ir.Node} : LineShows s ns →
      LineShows (braced e ++ s) (.expression e :: ns)

mutual

inductive ElementShows : Text → Ir.Node → Prop
  | closed {l : Label} : l.Valid →
      ElementShows ('<' :: l.write ++ [' ', '/', '>']) (.element l.name l.classes [] [])
  | around {l : Label} {s : Text} {ns : List Ir.Node} : l.Valid → ContentShows s ns →
      ElementShows ('<' :: l.write ++ ['>'] ++ s ++ (['<', '/'] ++ l.name ++ ['>']))
        (.element l.name l.classes [] ns)

inductive ContentShows : Text → List Ir.Node → Prop
  | line {s : Text} {ns : List Ir.Node} : LineShows s ns → ContentShows s ns
  | lines {s : Text} {ns : List Ir.Node} : LinesShow false s ns → ContentShows s ns

/-- Nodes on lines of their own. A text that stands as it is has a space before it if another one is
in front of it, which the flag tells. -/
inductive LinesShow : Bool → Text → List Ir.Node → Prop
  | nil {bare : Bool} {g : Text} : Gap g → LinesShow bare g []
  | cons {bare bare' : Bool} {g t s : Text} {n : Ir.Node} {ns : List Ir.Node} : Gap g →
      ChildShows bare' t n → LinesShow bare' s ns →
      LinesShow bare (g ++ t ++ s) (spaceIf (bare && bare') (n :: ns))

/-- A node on lines of its own. The flag tells that it is a text that stands as it is. -/
inductive ChildShows : Bool → Text → Ir.Node → Prop
  | text {v : Text} : (∀ x ∈ v, isTextChar x = true) → Unbroken v → v ≠ [] → trimFront v = v →
      trimBack v = v → ChildShows true v (.text v)
  | quoted {v : Text} : ChildShows false (quotedText v) (.text v)
  | expression {e : Text} : ChildShows false (braced e) (.expression e)
  | element {t : Text} {n : Ir.Node} : ElementShows t n → ChildShows false t n
  | conditional {s : Text} {bs : List (Ir.Branch Ir.Node)} : CodeShows s bs →
      ChildShows false (braced s) (.conditional bs)

inductive CodeShows : Text → List (Ir.Branch Ir.Node) → Prop
  | guarded {test s : Text} {ns : List Ir.Node} : BodyShows s ns →
      CodeShows (test ++ [' ', '&', '&', ' '] ++ parenthesized s) [⟨some test, ns⟩]
  | chosen {g test s r : Text} {ns : List Ir.Node} {bs : List (Ir.Branch Ir.Node)} : Blanks g →
      BodyShows s ns → OtherwiseShows r bs →
      CodeShows (g ++ test ++ [' ', '?', ' '] ++ parenthesized s ++ r) (⟨some test, ns⟩ :: bs)

/-- The code behind the first of some branches. -/
inductive OtherwiseShows : Text → List (Ir.Branch Ir.Node) → Prop
  | nothing {g h : Text} : Blanks g → Blanks h →
      OtherwiseShows (g ++ [':', ' ', 'n', 'u', 'l', 'l'] ++ h) []
  | last {g h s : Text} {ns : List Ir.Node} : Blanks g → Blanks h → BodyShows s ns →
      OtherwiseShows (g ++ [':', ' '] ++ parenthesized s ++ h) [⟨none, ns⟩]
  | chosen {g test s r : Text} {ns : List Ir.Node} {bs : List (Ir.Branch Ir.Node)} : Blanks g →
      BodyShows s ns → OtherwiseShows r bs →
      OtherwiseShows (g ++ [':', ' '] ++ test ++ [' ', '?', ' '] ++ parenthesized s ++ r)
        (⟨some test, ns⟩ :: bs)

/-- One expression that shows nodes: nothing, an element, or a fragment around them. -/
inductive BodyShows : Text → List Ir.Node → Prop
  | nothing {g h : Text} : Blanks g → Blanks h → BodyShows (g ++ ['n', 'u', 'l', 'l'] ++ h) []
  | element {g h t : Text} {n : Ir.Node} : Blanks g → Blanks h → ElementShows t n →
      BodyShows (g ++ t ++ h) [n]
  | fragment {g h s : Text} {ns : List Ir.Node} : Blanks g → Blanks h → ContentShows s ns →
      BodyShows (g ++ (['<', '>'] ++ s ++ ['<', '/', '>']) ++ h) ns

end

/-! ## Nodes as they are shown -/

mutual

/-- A node with a space for each line break between two texts in it that stand as they are. -/
def laidOut : Ir.Node → Ir.Node
  | .element tag classes attributes children =>
    .element tag classes attributes
      (if (inlineRun? children).isSome then children else spaced (laidOutList children))
  | .fragment children => .fragment (spaced (laidOutList children))
  | .conditional branches => .conditional (laidOutBranches branches)
  | .text v => .text v
  | .expression e => .expression e
  | .foreign => .foreign

def laidOutList : List Ir.Node → List Ir.Node
  | [] => []
  | n :: ns => laidOut n :: laidOutList ns

def laidOutBranches : List (Ir.Branch Ir.Node) → List (Ir.Branch Ir.Node)
  | [] => []
  | b :: bs => laidOutBranch b :: laidOutBranches bs

def laidOutBranch : Ir.Branch Ir.Node → Ir.Branch Ir.Node
  | ⟨test, children⟩ => ⟨test, laidOutList children⟩

end

end Offside.Markup
