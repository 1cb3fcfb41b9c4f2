import Offside.Ir.Lowering
import Offside.Proofs.Template.Bare

/-! Lowering a template. A class token that is no reference stands for itself, and the neutral tree
has nothing of the places in it. -/
namespace Offside

theorem AliasEnv.expandToken_literal {c : Char} (h : c ≠ '$') (env : AliasEnv) (s : Text) :
    env.expandToken (c :: s) = [c :: s] := by
  rw [expandToken]
  rintro s' hs'
  exact h (List.cons.inj hs').1

namespace Ir

theorem lowerBranches_eq_map (env : AliasEnv) (bs : List (Offside.Branch Offside.Node)) :
    lowerBranches env bs = bs.map (lowerBranch env) := by
  induction bs with
  | nil => rfl
  | cons b bs ih => rw [lowerBranches, ih, List.map_cons]

/-! ## Places -/

theorem ofPartList_bare (ps : List Part) : ofPartList (ps.map Part.bare) = ofPartList ps := by
  induction ps with
  | nil => rfl
  | cons p ps ih => cases p <;> simp [ofPartList, Part.bare, ih]

mutual

theorem lower_bare (env : AliasEnv) : ∀ n : Offside.Node, lower env n.bare = lower env n
  | .element _ _ ns _ => by simp [Node.bare, lower, lowerList_bare env ns]
  | .text ps _ _ => by simp [Node.bare, lower, ofPartList_bare]
  | .expression _ _ => rfl
  | .conditional bs _ => by simp [Node.bare, lower, lowerBranches_bare env bs]
  | .loop _ _ _ _ => rfl
  | .foreign _ => rfl

theorem lowerList_bare (env : AliasEnv) : ∀ ns : List Offside.Node,
    lowerList env (Node.bareList ns) = lowerList env ns
  | [] => rfl
  | n :: ns => by simp [Node.bareList, lowerList, lower_bare env n, lowerList_bare env ns]

theorem lowerBranches_bare (env : AliasEnv) : ∀ bs : List (Offside.Branch Offside.Node),
    lowerBranches env (Node.bareBranches bs) = lowerBranches env bs
  | [] => rfl
  | b :: bs => by
    simp [Node.bareBranches, lowerBranches, lowerBranch_bare env b, lowerBranches_bare env bs]

theorem lowerBranch_bare (env : AliasEnv) : ∀ b : Offside.Branch Offside.Node,
    lowerBranch env (Node.bareBranch b) = lowerBranch env b
  | ⟨_, ns, _⟩ => by simp [Node.bareBranch, lowerBranch, lowerList_bare env ns]

end

theorem propsComment_bare (p : PropsBlock) : propsComment p.bare = propsComment p := by
  have hempty : (p.fields.map PropsField.bare).isEmpty = p.fields.isEmpty := List.isEmpty_map
  rw [propsComment, propsComment, PropsBlock.bare]
  dsimp only
  rw [hempty, List.map_map]
  rfl

theorem ofBlock_bare (b : Option AliasBlock) :
    AliasEnv.ofBlock (b.map AliasBlock.bare) = AliasEnv.ofBlock b := by
  cases b with
  | none => rfl
  | some b => simp [AliasEnv.ofBlock, AliasBlock.bare, ClassAlias.bare, Function.comp_def]

theorem ofTemplate_bare (t : Template) : ofTemplate t.bare = ofTemplate t := by
  have hprops : (t.props.map PropsBlock.bare).map (fun p => Node.expression (propsComment p)) =
      t.props.map fun p => Node.expression (propsComment p) := by
    rw [Option.map_map]
    exact congrArg (t.props.map ·) (funext fun p => congrArg Node.expression (propsComment_bare p))
  rw [ofTemplate, ofTemplate, Template.bare, hprops, ofBlock_bare, lowerList_bare]

end Ir

end Offside
