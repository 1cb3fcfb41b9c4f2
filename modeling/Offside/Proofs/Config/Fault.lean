import Offside.Proofs.Config.Field

/-! What is wrong with a configuration. The faults are said of the data alone, whatever the order of
its keys: data without a fault is accepted and sets what it says, other data is refused for one of
its faults. A fault whose report would show a number that cannot be written is not reported. -/
namespace Offside

open Data

/-! ## Mappings -/

namespace Data.Value

variable {v x y : Value} {k : Value} {s : Text} {members : List (Value × Value)}

/-- A mapping binds a key to a value. -/
def Binds (v k x : Value) : Prop := ∃ members, v.members? = some members ∧ (k, x) ∈ members

/-- No two keys of a mapping are the same. -/
def KeysDiffer (v : Value) : Prop :=
  ∀ members, v.members? = some members → members.Pairwise fun m n => m.1.sameKey n.1 = false

/-- The keys of a mapping differ, and so do those of the mappings that are its values. -/
structure WellKeyed (v : Value) : Prop where
  whole : v.KeysDiffer
  parts : ∀ {k x}, v.Binds k x → x.KeysDiffer

theorem binds_iff (h : v.members? = some members) : v.Binds k x ↔ (k, x) ∈ members := by
  constructor
  · rintro ⟨members', h', hmem⟩
    obtain rfl : members' = members := Option.some.inj (h'.symm.trans h)
    exact hmem
  · intro hmem
    exact ⟨members, h, hmem⟩

theorem not_binds (h : v.members? = none) : ¬ v.Binds k x := by
  rintro ⟨members, h', -⟩
  rw [h] at h'
  cases h'

@[simp] theorem sameKey_text (s t : Text) : sameKey (.text s) (.text t) = (s == t) := by
  simp [sameKey]

theorem notMem_of_pairwise
    (h : ((.text s, x) :: members).Pairwise fun m n => m.1.sameKey n.1 = false) :
    (.text s, y) ∉ members := by
  intro hy
  have hsame := (List.pairwise_cons.mp h).1 _ hy
  simp at hsame

/-- If no two keys are the same, a key has one value. -/
theorem KeysDiffer.eq_of_binds (h : v.KeysDiffer) (hx : v.Binds (.text s) x)
    (hy : v.Binds (.text s) y) : x = y := by
  obtain ⟨members, hv, hx⟩ := hx
  rw [binds_iff hv] at hy
  have hdiffer := h members hv
  clear h hv
  induction members with
  | nil => cases hx
  | cons m members ih =>
    rcases List.mem_cons.mp hx with rfl | hx'
    · rcases List.mem_cons.mp hy with hm | hy'
      · exact (Prod.ext_iff.mp hm).2.symm
      · exact (notMem_of_pairwise hdiffer hy').elim
    · rcases List.mem_cons.mp hy with rfl | hy'
      · exact (notMem_of_pairwise hdiffer hx').elim
      · exact ih hy' hx' (List.pairwise_cons.mp hdiffer).2

end Data.Value

namespace Config

open Data.Value

/-! ## Faults -/

inductive Part.HasFault (p : Part) (v : Value) : ConfigError → Prop
  | noMapping : v ≠ .null → v.members? = none → p.HasFault v ⟨p.name, .noMapping v⟩
  | unknownKey {k x : Value} : v.Binds k x → (∀ f : Field, f.part = p → k ≠ .text f.key) →
      p.HasFault v ⟨pathOf p.name k, .unknownKey k⟩
  | wrongValue {f : Field} {x : Value} : f.part = p → v.Binds (.text f.key) x →
      ¬ f.kind.Accepts x → p.HasFault v ⟨pathOf p.name (.text f.key), f.kind.fault x⟩

inductive HasFault (v : Value) : ConfigError → Prop
  | noMapping : v.members? = none → HasFault v ⟨"<root>".toList, .noMapping v⟩
  | unknownKey {k x : Value} : v.Binds k x → (∀ p : Part, k ≠ .text p.name) →
      HasFault v ⟨k.shown, .unknownKey k⟩
  | part {p : Part} {x : Value} {e : ConfigError} : v.Binds (.text p.name) x → p.HasFault x e →
      HasFault v e

/-- A configuration gives a value for a field. -/
def Gives (v : Value) (f : Field) (x : Value) : Prop :=
  ∃ part, v.Binds (.text f.part.name) part ∧ part.Binds (.text f.key) x

variable {α : Type} {p : Part} {f g : Field} {v x y k : Value} {path : Text} {e : ConfigError}
  {names : List Text} {members : List (Value × Value)} {put : α → Settings}
  {set : α → Text → Text → Value → Except ConfigError α} {a b : α}

/-! ## Reading -/

/-- Checking keys finds the first one that is not one of the names. -/
theorem checkKeys_or (names : List Text) (place : Value → Text) (members : List (Value × Value)) :
    (checkKeys names place members = .ok () ∧ ∀ m ∈ members, isKey names m.1 = true) ∨
      ∃ k x, (k, x) ∈ members ∧ isKey names k = false ∧
        checkKeys names place members = .error ⟨place k, .unknownKey k⟩ := by
  rw [checkKeys]
  cases hfind : members.find? (!isKey names ·.1) with
  | none =>
    refine Or.inl ⟨rfl, fun m hm => ?_⟩
    simpa using List.find?_eq_none.mp hfind m hm
  | some m =>
    refine Or.inr ⟨m.1, m.2, List.mem_of_find?_eq_some hfind, ?_, rfl⟩
    simpa using List.find?_some hfind

/-- Settings follow what is given for the fields of a part, and other settings in the others. -/
def Follows (p : Part) (gives : Field → Value → Prop) (s t : Settings) : Prop :=
  ∀ f : Field, f.part = p → (∀ x, gives f x → f.value t = f.kind.normal x) ∧
    ((∀ x, ¬ gives f x) → f.value t = f.value s)

/-- Members give the values of the fields whose keys they have. -/
def InMembers (members : List (Value × Value)) (f : Field) (x : Value) : Prop :=
  (.text f.key, x) ∈ members

theorem inMembers_cons (hf : f.part = p) (hg : g.part = p) :
    InMembers ((.text f.key, x) :: members) g y ↔ (g = f ∧ y = x) ∨ InMembers members g y := by
  constructor
  · intro h
    rcases List.mem_cons.mp h with heq | h
    · obtain ⟨hkey, hy⟩ := Prod.mk.inj heq
      exact Or.inl ⟨Field.eq_of_key (hg.trans hf.symm) (Value.text.inj hkey), hy⟩
    · exact Or.inr h
  · rintro (⟨rfl, rfl⟩ | h)
    · exact List.mem_cons_self
    · exact List.mem_cons_of_mem _ h

/-- Setting one field, which no later member gives, and then following the later members. -/
theorem Follows.cons {s t u : Settings} (hf : f.part = p) (hx : f.value t = f.kind.normal x)
    (hothers : ∀ g : Field, g.part = p → g ≠ f → g.value t = g.value s)
    (hrest : ∀ y, ¬ InMembers members f y) (h : Follows p (InMembers members) t u) :
    Follows p (InMembers ((.text f.key, x) :: members)) s u := by
  intro g hg
  simp only [inMembers_cons hf hg]
  by_cases hgf : g = f
  · subst hgf
    refine ⟨fun y hy => ?_, fun hnot => (hnot x (Or.inl ⟨rfl, rfl⟩)).elim⟩
    rcases hy with ⟨-, rfl⟩ | hy
    · rw [(h g hg).2 hrest, hx]
    · exact (hrest y hy).elim
  · refine ⟨fun y hy => ?_, fun hnot => ?_⟩
    · rcases hy with ⟨heq, -⟩ | hy
      · exact (hgf heq).elim
      · exact (h g hg).1 y hy
    · rw [(h g hg).2 fun y hy => hnot y (Or.inr hy)]
      exact hothers g hg hgf

/-- One member after the other is set, up to the first one with a wrong value. -/
theorem setAll_or (hset : Sets p put names set) (a : α)
    (hknown : ∀ m ∈ members, isKey names m.1 = true)
    (hdiffer : members.Pairwise fun m n => m.1.sameKey n.1 = false) :
    (∃ b, setAll set p.name a members = .ok b ∧ Follows p (InMembers members) (put a) (put b) ∧
        ∀ f : Field, f.part = p → ∀ x, InMembers members f x → f.kind.Accepts x) ∨
      ∃ (f : Field) (x : Value), f.part = p ∧ InMembers members f x ∧ ¬ f.kind.Accepts x ∧
        setAll set p.name a members =
          .error ⟨pathOf p.name (.text f.key), f.kind.fault x⟩ := by
  induction members generalizing a with
  | nil =>
    refine Or.inl ⟨a, rfl, fun f hf => ⟨fun x hx => ?_, fun _ => rfl⟩, fun f hf x hx => ?_⟩
    · cases hx
    · cases hx
  | cons m members ih =>
    obtain ⟨k, x⟩ := m
    obtain ⟨f, hf, rfl⟩ := hset.isKey_iff.mp (hknown _ List.mem_cons_self)
    by_cases hx : f.kind.Accepts x
    · obtain ⟨b, hb, hvalue, hothers⟩ := hset.accepts a (pathOf p.name (.text f.key)) hf hx
      have hcons : setAll set p.name a ((.text f.key, x) :: members) =
          setAll set p.name b members := by
        rw [setAll, Value.shown, hb]
        rfl
      have hmembers := ih b (fun m hm => hknown m (List.mem_cons_of_mem _ hm))
        (List.pairwise_cons.mp hdiffer).2
      rw [hcons]
      rcases hmembers with ⟨c, hc, hfollows, haccepted⟩ | ⟨g, y, hg, hy, h⟩
      · -- the keys differ, so no later member sets the field again
        have hrest : ∀ y, ¬ InMembers members f y := fun y => notMem_of_pairwise hdiffer
        refine Or.inl ⟨c, hc, hfollows.cons hf hvalue hothers hrest, fun g hg y hy => ?_⟩
        rcases (inMembers_cons hf hg).mp hy with ⟨rfl, rfl⟩ | hy
        · exact hx
        · exact haccepted g hg y hy
      · exact Or.inr ⟨g, y, hg, List.mem_cons_of_mem _ hy, h⟩
    · refine Or.inr ⟨f, x, hf, List.mem_cons_self, hx, ?_⟩
      rw [setAll, Value.shown, hset.rejects a _ hf hx]
      rfl

theorem readPart_of_not_mapping (hnull : v ≠ .null) (hmembers : v.members? = none) :
    readPart set names path a (some v) = .error ⟨path, .noMapping v⟩ := by
  cases v with
  | null => exact (hnull rfl).elim
  | mapping members | ordered members => cases hmembers
  | _ => rfl

theorem readPart_of_members (hmembers : v.members? = some members) :
    readPart set names path a (some v) =
      (checkKeys names (pathOf path) members >>= fun _ => setAll set path a members) := by
  cases v with
  | mapping ms | ordered ms =>
    obtain rfl : ms = members := Option.some.inj hmembers
    rfl
  | _ => cases hmembers

theorem Part.not_hasFault_null : ¬ p.HasFault .null e := by
  have hmembers : Value.null.members? = none := rfl
  intro he
  cases he with
  | noMapping hne => exact hne rfl
  | unknownKey hx => exact not_binds hmembers hx
  | wrongValue _ hx => exact not_binds hmembers hx

/-- A mapping with the keys of fields and values that these accept has no fault. -/
theorem Part.not_hasFault (hmembers : v.members? = some members)
    (hknown : ∀ m ∈ members, ∃ f : Field, f.part = p ∧ m.1 = .text f.key)
    (haccepted : ∀ f : Field, f.part = p → ∀ x, InMembers members f x → f.kind.Accepts x) :
    ¬ p.HasFault v e := by
  intro he
  cases he with
  | noMapping _ hnone =>
    rw [hmembers] at hnone
    cases hnone
  | unknownKey hx hnot =>
    obtain ⟨f, hf, hkey⟩ := hknown _ ((binds_iff hmembers).mp hx)
    exact hnot f hf hkey
  | wrongValue hf hx hwrong =>
    have hx := (binds_iff hmembers).mp hx
    exact hwrong (haccepted _ hf _ hx)

/-- A part without a fault is read, and the settings follow it; else one of its faults is found. -/
theorem readPart_or (hset : Sets p put names set) (a : α) (hdiffer : v.KeysDiffer) :
    (∃ b, readPart set names p.name a (some v) = .ok b ∧ (∀ e, ¬ p.HasFault v e) ∧
        Follows p (fun f x => v.Binds (.text f.key) x) (put a) (put b)) ∨
      ∃ e, p.HasFault v e ∧ readPart set names p.name a (some v) = .error e := by
  by_cases hnull : v = .null
  · subst hnull
    have hnot : ∀ f : Field, ∀ x, ¬ Value.null.Binds (.text f.key) x := fun _ _ => not_binds rfl
    refine Or.inl ⟨a, rfl, fun e => Part.not_hasFault_null, fun f _ => ⟨fun x hx => ?_, ?_⟩⟩
    · exact (hnot f x hx).elim
    · intro _
      rfl
  cases hmembers : v.members? with
  | none => exact Or.inr ⟨_, .noMapping hnull hmembers, readPart_of_not_mapping hnull hmembers⟩
  | some members =>
    rw [readPart_of_members hmembers]
    rcases checkKeys_or names (pathOf p.name) members with
      ⟨hcheck, hknown⟩ | ⟨k, x, hk, hunknown, hcheck⟩
    · rw [hcheck]
      rcases setAll_or hset a hknown (hdiffer members hmembers) with
        ⟨b, hb, hfollows, haccepted⟩ | ⟨f, x, hf, hx, hwrong, hall⟩
      · have hfields := fun m hm => hset.isKey_iff.mp (hknown m hm)
        refine Or.inl ⟨b, hb, fun e => Part.not_hasFault hmembers hfields haccepted, ?_⟩
        simp only [binds_iff hmembers]
        exact hfollows
      · exact Or.inr ⟨_, .wrongValue hf ⟨members, hmembers, hx⟩ hwrong, hall⟩
    · refine Or.inr ⟨_, .unknownKey ⟨members, hmembers, hk⟩ fun f hf hkey => ?_, ?_⟩
      · have hisKey := hset.isKey_iff.mpr ⟨f, hf, hkey⟩
        rw [hunknown] at hisKey
        cases hisKey
      · rw [hcheck]
        rfl

/-! ## Configurations -/

theorem binds_of_valueOf {name : Text} (hv : v.members? = some members)
    (h : valueOf? name members = some x) : v.Binds (.text name) x := by
  obtain ⟨m, hm, rfl⟩ := Option.map_eq_some_iff.mp h
  have hnamed : isKey [name] m.1 = true := by simpa using List.find?_some hm
  obtain ⟨s, hs, hkey⟩ := isKey_iff_exists.mp hnamed
  obtain rfl := List.mem_singleton.mp hs
  exact ⟨members, hv, hkey ▸ List.mem_of_find?_eq_some hm⟩

theorem not_binds_of_valueOf {name : Text} (hv : v.members? = some members)
    (h : valueOf? name members = none) (x : Value) : ¬ v.Binds (.text name) x := by
  intro hx
  have hfind := List.find?_eq_none.mp (Option.map_eq_none_iff.mp h) _ ((binds_iff hv).mp hx)
  exact hfind (isKey_iff_exists.mpr ⟨name, List.mem_cons_self, rfl⟩)

/-- As `readPart_or`, of the part that a configuration has, which may be none. -/
theorem readPart_valueOf_or (hset : Sets p put names set) (a : α) (hkeys : v.WellKeyed)
    (hv : v.members? = some members) :
    (∃ b, readPart set names p.name a (valueOf? p.name members) = .ok b ∧
        (∀ x e, v.Binds (.text p.name) x → ¬ p.HasFault x e) ∧
        Follows p (Gives v) (put a) (put b)) ∨
      ∃ e, HasFault v e ∧
        readPart set names p.name a (valueOf? p.name members) = .error e := by
  cases hvalue : valueOf? p.name members with
  | none =>
    have hnot := not_binds_of_valueOf hv hvalue
    refine Or.inl ⟨a, rfl, fun x e hx => (hnot x hx).elim, ?_⟩
    rintro f rfl
    refine ⟨?_, fun _ => rfl⟩
    rintro x ⟨part, hpart, -⟩
    exact (hnot part hpart).elim
  | some x =>
    have hx := binds_of_valueOf hv hvalue
    have hunique : ∀ {y}, v.Binds (.text p.name) y → y = x := fun hy =>
      hkeys.whole.eq_of_binds hy hx
    rcases readPart_or hset a (hkeys.parts hx) with ⟨b, hb, hfine, hfollows⟩ | ⟨e, he, hread⟩
    · refine Or.inl ⟨b, hb, fun y e hy => hunique hy ▸ hfine e, ?_⟩
      rintro f rfl
      have hgives : ∀ y, Gives v f y ↔ x.Binds (.text f.key) y := by
        intro y
        constructor
        · rintro ⟨part, hpart, hy⟩
          exact hunique hpart ▸ hy
        · intro hy
          exact ⟨x, hx, hy⟩
      simp only [hgives]
      exact hfollows f rfl
    · exact Or.inr ⟨e, .part hx he, hread⟩

theorem isKey_rootKeys_iff : isKey rootKeys k = true ↔ ∃ p : Part, k = .text p.name := by
  have hroot : rootKeys = [Part.format, Part.exporting].map Part.name := rfl
  simp only [isKey_iff_exists, hroot, List.mem_map]
  constructor
  · rintro ⟨-, ⟨p, -, rfl⟩, rfl⟩
    exact ⟨p, rfl⟩
  · rintro ⟨p, rfl⟩
    refine ⟨p.name, ⟨p, ?_, rfl⟩, rfl⟩
    cases p <;> decide

/-- Following in each part is following in the whole. -/
theorem Follows.join {gives : Field → Value → Prop} {o : Layout} {x : ExportOptions}
    (hformat : Follows .format gives {} { format := o })
    (hexporting : Follows .exporting gives {} { exporting := x }) (p : Part) :
    Follows p gives {} ⟨o, x⟩ := by
  intro f hf
  cases p with
  | format =>
    have hvalue : f.value ⟨o, x⟩ = f.value { format := o } := by
      cases f <;> first | rfl | cases hf
    rw [hvalue]
    exact hformat f hf
  | exporting =>
    have hvalue : f.value ⟨o, x⟩ = f.value { exporting := x } := by
      cases f <;> first | rfl | cases hf
    rw [hvalue]
    exact hexporting f hf

/-- Data with the keys of parts that have no fault has none either. -/
theorem not_hasFault (hv : v.members? = some members)
    (hknown : ∀ m ∈ members, ∃ p : Part, m.1 = .text p.name)
    (hparts : ∀ (p : Part) x e, v.Binds (.text p.name) x → ¬ p.HasFault x e) :
    ¬ HasFault v e := by
  intro he
  cases he with
  | noMapping hnone =>
    rw [hv] at hnone
    cases hnone
  | unknownKey hk hnot =>
    obtain ⟨p, hp⟩ := hknown _ ((binds_iff hv).mp hk)
    exact hnot p hp
  | part hx he => exact hparts _ _ _ hx he

theorem ofValue_of_members (hv : v.members? = some members) :
    ofValue v = (checkKeys rootKeys Value.shown members >>= fun _ =>
      readPart setFormat formatKeys Part.format.name {} (valueOf? Part.format.name members) >>=
      fun o => readPart setExport exportKeys Part.exporting.name {}
        (valueOf? Part.exporting.name members) >>= fun x => .ok ⟨o, x⟩) := by
  simp only [ofValue, hv]
  rfl

/-- Data without a fault is accepted, and the settings follow it; else one fault of it is found. -/
theorem ofValue_or (hkeys : v.WellKeyed) :
    (∃ s, ofValue v = .ok s ∧ (∀ e, ¬ HasFault v e) ∧ ∀ p, Follows p (Gives v) {} s) ∨
      ∃ e, HasFault v e ∧ ofValue v = .error e := by
  cases hv : v.members? with
  | none =>
    refine Or.inr ⟨_, .noMapping hv, ?_⟩
    simp only [ofValue, hv]
  | some members =>
    rw [ofValue_of_members hv]
    rcases checkKeys_or rootKeys Value.shown members with
      ⟨hcheck, hknown⟩ | ⟨k, x, hk, hunknown, hcheck⟩
    · rw [hcheck]
      rcases readPart_valueOf_or sets_format {} hkeys hv with
        ⟨o, ho, hformat, hfollows⟩ | ⟨e, he, hpart⟩
      · rw [ho]
        rcases readPart_valueOf_or sets_exporting {} hkeys hv with
          ⟨x, hx, hexporting, hfollows'⟩ | ⟨e, he, hpart⟩
        · rw [hx]
          refine Or.inl ⟨⟨o, x⟩, rfl, fun e => not_hasFault hv ?_ ?_, hfollows.join hfollows'⟩
          · exact fun m hm => isKey_rootKeys_iff.mp (hknown m hm)
          · intro p
            cases p with
            | format => exact hformat
            | exporting => exact hexporting
        · rw [hpart]
          exact Or.inr ⟨e, he, rfl⟩
      · rw [hpart]
        exact Or.inr ⟨e, he, rfl⟩
    · rw [hcheck]
      refine Or.inr ⟨_, .unknownKey ⟨members, hv, hk⟩ fun p hp => ?_, rfl⟩
      rw [isKey_rootKeys_iff.mpr ⟨p, hp⟩] at hunknown
      cases hunknown

/-- Data is refused with a message. -/
def Refuses (v : Value) (m : Text) : Prop := ∃ e, ofValue v = .error e ∧ e.message? = some m

/-- A configuration is refused with the message of the fault that is found, if it can be reported.
-/
theorem refuses_iff {m : Text} (h : ofValue v = .error e) :
    Refuses v m ↔ e.fault.isTellable = true ∧ m = e.message := by
  have hmessage : e.message? = some m ↔ e.fault.isTellable = true ∧ m = e.message := by
    rw [ConfigError.message?]
    split
    · simp [*, eq_comm]
    · simp [*]
  rw [← hmessage]
  constructor
  · rintro ⟨e', he', hm⟩
    obtain rfl : e = e' := Except.error.inj (h.symm.trans he')
    exact hm
  · intro hm
    exact ⟨e, h, hm⟩

theorem isTellable_negative_iff {n : Int} : (ConfigFault.negative n).isTellable = true ↔
    n.natAbs < Nat.pow 10 Numeral.digitLimit := by
  rw [ConfigFault.isTellable, isShowable, Numeral.isWritable, decide_eq_true_iff]

/-- Which data is a configuration. It is accepted exactly if it has no fault, and each field then
has what is given for it, or else its default. Where all faults can be reported, other data is
refused, with a message that starts with the place of a fault. A single fault that cannot be
reported is met with no message at all. -/
theorem ofValue_faults (v : Value) (hkeys : v.WellKeyed) :
    ((∃ s, ofValue v = .ok s) ↔ ∀ e, ¬ HasFault v e) ∧
      (∀ s, ofValue v = .ok s → ∀ f : Field,
        (∀ x, Gives v f x → f.value s = f.kind.normal x) ∧
          ((∀ x, ¬ Gives v f x) → f.value s = f.value {})) ∧
      (∀ m, Refuses v m → ∃ e, HasFault v e ∧ e.fault.isTellable = true ∧
        ∃ rest, m = e.path ++ ": ".toList ++ rest) ∧
      ((∃ e, HasFault v e) → (∀ e, HasFault v e → e.fault.isTellable = true) →
        ∃ m, Refuses v m) ∧
      ∀ e, HasFault v e → (∀ e', HasFault v e' → e' = e) →
        (e.fault.isTellable = true → ∃ rest, Refuses v (e.path ++ ": ".toList ++ rest)) ∧
          (e.fault.isTellable = false → ∀ m, ¬ Refuses v m) := by
  rcases ofValue_or hkeys with ⟨s, hs, hfine, hfollows⟩ | ⟨e, he, hread⟩
  · refine ⟨⟨fun _ => hfine, fun _ => ⟨s, hs⟩⟩, fun t ht f => ?_, ?_, ?_, ?_⟩
    · rw [hs] at ht
      obtain rfl := Except.ok.inj ht
      exact hfollows f.part f rfl
    · rintro m ⟨e, he, -⟩
      rw [hs] at he
      cases he
    · rintro ⟨e, he⟩
      exact (hfine e he).elim
    · intro e he
      exact (hfine e he).elim
  · refine ⟨⟨?_, fun hnone => (hnone e he).elim⟩, fun s hs => ?_, fun m hm => ?_, ?_, ?_⟩
    · rintro ⟨s, hs⟩
      rw [hread] at hs
      cases hs
    · rw [hread] at hs
      cases hs
    · obtain ⟨htellable, rfl⟩ := (refuses_iff hread).mp hm
      exact ⟨e, he, htellable, e.fault.message, rfl⟩
    · intro _ hall
      exact ⟨e.message, (refuses_iff hread).mpr ⟨hall e he, rfl⟩⟩
    · intro e' _ honly
      obtain rfl := honly e he
      refine ⟨fun h => ⟨e.fault.message, (refuses_iff hread).mpr ⟨h, rfl⟩⟩, fun h m hm => ?_⟩
      have htellable := ((refuses_iff hread).mp hm).1
      rw [h] at htellable
      cases htellable

/-- Data that sets the indent of the layout. -/
def indentData (n : Int) : Value :=
  .mapping [(.text "format".toList, .mapping [(.text "indent_size".toList, .integer n)])]

theorem wellKeyed_indentData (n : Int) : (indentData n).WellKeyed := by
  constructor
  · intro members h
    obtain rfl := Option.some.inj h
    simp
  · rintro k x ⟨members, h, hx⟩ inner hinner
    obtain rfl := Option.some.inj h
    obtain ⟨-, rfl⟩ := Prod.mk.inj (List.mem_singleton.mp hx)
    obtain rfl := Option.some.inj hinner
    simp

/-- Data with a negative indent alone has this one fault. -/
theorem hasFault_indentData {n : Int} (hn : n < 0) :
    HasFault (indentData n) e ↔ e = ⟨"format.indent_size".toList, .negative n⟩ := by
  have hformat : ∀ {k x}, (indentData n).Binds k x ↔ k = .text Part.format.name ∧
      x = .mapping [(.text Field.formatIndent.key, .integer n)] := by
    intro k x
    rw [binds_iff rfl, List.mem_singleton, Prod.mk.injEq]
    rfl
  have hindent : ∀ {k x}, (Value.mapping [(.text Field.formatIndent.key, .integer n)]).Binds k x ↔
      k = .text Field.formatIndent.key ∧ x = .integer n := by
    intro k x
    rw [binds_iff rfl, List.mem_singleton, Prod.mk.injEq]
  constructor
  · intro h
    cases h with
    | noMapping h => cases h
    | unknownKey hk hnot => exact (hnot .format (hformat.mp hk).1).elim
    | @part p x _ hx he =>
      obtain ⟨hname, rfl⟩ := hformat.mp hx
      obtain rfl : p = .format := Part.name_injective (Value.text.inj hname)
      cases he with
      | noMapping _ h => cases h
      | unknownKey hk hnot => exact (hnot .formatIndent rfl (hindent.mp hk).1).elim
      | @wrongValue f y hf hy _ =>
        obtain ⟨hkey, rfl⟩ := hindent.mp hy
        obtain rfl : f = .formatIndent := Field.eq_of_key hf (Value.text.inj hkey)
        rfl
  · rintro rfl
    have hwrong : ¬ Field.formatIndent.kind.Accepts (.integer n) := by
      rintro ⟨h⟩
      omega
    have hvalue := Part.HasFault.wrongValue rfl (hindent.mpr ⟨rfl, rfl⟩) hwrong
    exact .part (hformat.mpr ⟨rfl, rfl⟩) hvalue

/-- A negative indent is refused, and the message says where it is. -/
theorem ofValue_faults_indentData : (indentData (-4)).WellKeyed ∧
    ∃ rest, Refuses (indentData (-4)) ("format.indent_size: ".toList ++ rest) := by
  have hkeys := wellKeyed_indentData (-4)
  have hfault : ∀ e, HasFault (indentData (-4)) e ↔ e = _ := fun e =>
    hasFault_indentData (by decide)
  obtain ⟨-, -, -, -, honly⟩ := ofValue_faults _ hkeys
  exact ⟨hkeys, (honly _ ((hfault _).mpr rfl) fun e he => (hfault e).mp he).1
    (by decide +kernel)⟩

example : ofValue (.mapping
    [(.text "export".toList, .mapping [(.text "target".toList, .text "Tsx".toList)]),
      (.text "format".toList, .null)]) = .ok { exporting := { target := .tsx } } := rfl

/-- Data can have a fault and yet not be refused with a message: here the one fault is an indent
below zero with one digit more than are written. -/
theorem not_refuses_indentData : ¬ ∀ v : Value, v.WellKeyed → (∃ e, HasFault v e) →
    ∃ m, Refuses v m := by
  intro h
  have hpow : ∀ k, 0 < Nat.pow 10 k := fun k => Nat.pow_pos (by decide)
  obtain ⟨n, hn, hpos⟩ : ∃ n, Nat.pow 10 Numeral.digitLimit ≤ n ∧ 0 < n :=
    ⟨_, Nat.le_refl _, hpow _⟩
  have hfault : ∀ e, HasFault (indentData (-n)) e ↔ e = _ := fun e =>
    hasFault_indentData (by omega)
  have hkeys := wellKeyed_indentData (-n)
  rcases ofValue_or hkeys with ⟨s, -, hfine, -⟩ | ⟨e, he, hread⟩
  · exact hfine _ ((hfault _).mpr rfl)
  · obtain ⟨m, hm⟩ := h _ hkeys ⟨e, he⟩
    obtain rfl := (hfault e).mp he
    have hwritable := ((refuses_iff hread).mp hm).1
    rw [isTellable_negative_iff, Int.natAbs_neg, Int.natAbs_natCast] at hwritable
    exact Nat.not_lt.mpr hn hwritable

end Config

end Offside
