import Mathlib.Data.List.Perm.Basic
import Mathlib.Logic.Function.Basic
import Offside.Document.Cache
import Offside.Proofs.Document.Index
import Offside.Proofs.Diagnostic
import Offside.Proofs.Template.Id

/-! What there is to remember of the documents, as a map from addresses: the version and the text of
the last reading, and its time. From it alone follows the index that goes with it. -/
namespace Offside.Document

/-- A reading of a document. Its time is the number of readings that were before it. -/
structure Held where
  version : Int
  text : Text
  time : Nat
deriving DecidableEq, Repr

/-- The document as a reading leaves it. -/
def Held.stored (uri : Text) (h : Held) : Stored := ⟨uri, h.version, h.time, Template.read h.text⟩

/-- The last reading at each address, and the number of readings so far. -/
structure Memory where
  at? : Text → Option Held
  readings : Nat

/-- What can be asked of a cache that changes it. -/
inductive Action
  | get (uri : Text) (version : Int) (text : Text)
  | invalidate (uri : Text)
  | clear
deriving DecidableEq, Repr

/-- An entry says of a document what its template does: the declared id, with its value and place,
or else the id that its address gives. -/
structure IdEntry.Describes (e : IdEntry) (t : Template) : Prop where
  declared : ∀ id, t.id = some id → e.id = id ∧ t.rawId.map logicalId = some id
  derived : t.id = none → Uri.templateId e.uri = .ok e.id
  rawId : e.rawId = t.rawId
  idSpan : e.idSpan = t.idSpan
  fromFileName : e.fromFileName = t.id.isNone

/-- An address and its template leave no choice. -/
theorem IdEntry.Describes.unique {e f : IdEntry} {t : Template} (he : e.Describes t)
    (hf : f.Describes t) (huri : e.uri = f.uri) : e = f := by
  have hid : e.id = f.id := by
    cases ht : t.id with
    | some id => rw [(he.declared id ht).1, (hf.declared id ht).1]
    | none =>
      have hgiven := he.derived ht
      rw [huri, hf.derived ht] at hgiven
      exact (Except.ok.inj hgiven).symm
  obtain ⟨-, -, hraw, hspan, hfile⟩ := hf
  rw [← he.rawId] at hraw
  rw [← he.idSpan] at hspan
  rw [← he.fromFileName] at hfile
  cases e
  cases f
  simp_all

/-- The entry that the cache makes for a document describes it. -/
theorem Cache.idEntry_describes {uri text : Text} {e : IdEntry}
    (h : idEntry uri (Template.read text) = .ok e) :
    e.uri = uri ∧ e.Describes (Template.read text).template := by
  rw [idEntry] at h
  rcases Template.id_read text with ⟨hid, hraw, hspan⟩ | ⟨v, hraw, hid, hne⟩
  · rw [hid] at h
    obtain ⟨id, hgiven, rfl⟩ := eq_ok_of_map h
    refine ⟨rfl, ⟨?_, fun _ => hgiven, hraw.symm, hspan.symm, by rw [hid]; rfl⟩⟩
    intro id' hid'
    rw [hid] at hid'
    cases hid'
  · rw [hid] at h
    cases hlogical : logicalId v with
    | nil => exact (hne hlogical).elim
    | cons c id =>
      rw [hlogical] at h
      cases h
      refine ⟨rfl, ⟨?_, ?_, rfl, rfl, by rw [hid]; rfl⟩⟩
      · intro id' hid'
        rw [hid, hlogical] at hid'
        cases hid'
        exact ⟨rfl, by rw [hraw, Option.map_some, hlogical]⟩
      · intro hnone
        rw [hid] at hnone
        cases hnone

namespace Memory

variable {m : Memory} {x y : IdIndex} {e : IdEntry} {uri u : Text} {h : Held}

def empty : Memory := ⟨fun _ => none, 0⟩

def forget (m : Memory) (uri : Text) : Memory := { m with at? := Function.update m.at? uri none }

/-- The memory with a new reading in place of what was at its address. -/
def remember (m : Memory) (uri : Text) (version : Int) (text : Text) : Memory :=
  ⟨Function.update m.at? uri (some ⟨version, text, m.readings⟩), m.readings + 1⟩

/-- A document is read only when it is not there in the version that is asked for. -/
def step (m : Memory) : Action → Memory
  | .get uri version text =>
    if (m.at? uri).any (·.version == version) then m else m.remember uri version text
  | .invalidate uri => m.forget uri
  | .clear => { m with at? := fun _ => none }

def run (as : List Action) : Memory := as.foldl step empty

/-- All readings are over. -/
def Past (m : Memory) : Prop := ∀ uri h, m.at? uri = some h → h.time < m.readings

/-- One document was read before another. -/
def Before (m : Memory) (u v : Text) : Prop :=
  ∃ g h, m.at? u = some g ∧ m.at? v = some h ∧ g.time < h.time

/-- The index that goes with the memory: one entry for each document, in the list of its id, each
list in the order of the readings and none empty. -/
structure Indexed (m : Memory) (x : IdIndex) : Prop where
  filed : x.Filed
  single : (x.listing.map IdEntry.uri).Nodup
  covers : ∀ uri, (m.at? uri).isSome → ∃ e ∈ x.listing, e.uri = uri
  describes : ∀ e ∈ x.listing, ∃ h, m.at? e.uri = some h ∧
    e.Describes (Template.read h.text).template
  ordered : ∀ p ∈ x, p.2.Pairwise fun e f => m.Before e.uri f.uri

theorem Before.irrefl : ¬ m.Before u u := by
  rintro ⟨g, h, hg, hh, hlt⟩
  rw [hg] at hh
  cases hh
  exact Nat.lt_irrefl _ hlt

theorem Before.asymm {v : Text} (huv : m.Before u v) : ¬ m.Before v u := by
  obtain ⟨g, h, hg, hh, hlt⟩ := huv
  rintro ⟨h', g', hh', hg', hlt'⟩
  rw [hg] at hg'
  rw [hh] at hh'
  cases hg'
  cases hh'
  omega

/-! ## The index under the changes of the memory -/

theorem indexed_empty (m : Memory) : Indexed { m with at? := fun _ => none } [] :=
  ⟨IdIndex.filed_nil, List.nodup_nil, by simp, by simp [IdIndex.listing], by simp⟩

theorem forget_self : (m.forget uri).at? uri = none := Function.update_self _ _ _

theorem forget_at? (h : u ≠ uri) : (m.forget uri).at? u = m.at? u := Function.update_of_ne h _ _

theorem remember_self {version : Int} {text : Text} :
    (m.remember uri version text).at? uri = some ⟨version, text, m.readings⟩ :=
  Function.update_self _ _ _

theorem remember_at? {version : Int} {text : Text} (h : u ≠ uri) :
    (m.remember uri version text).at? u = m.at? u :=
  Function.update_of_ne h _ _

theorem remember_forget (version : Int) (text : Text) :
    (m.forget uri).remember uri version text = m.remember uri version text := by
  simp [remember, forget]

theorem Past.forget (h : m.Past) (uri : Text) : (m.forget uri).Past := by
  intro u g hg
  by_cases hu : u = uri
  · rw [hu, forget_self] at hg
    cases hg
  · rw [forget_at? hu] at hg
    exact h u g hg

theorem Past.remember (h : m.Past) (uri : Text) (version : Int) (text : Text) :
    (m.remember uri version text).Past := by
  intro u g hg
  by_cases hu : u = uri
  · rw [hu, remember_self] at hg
    cases hg
    exact Nat.lt_succ_self _
  · rw [remember_at? hu] at hg
    exact Nat.lt_succ_of_lt (h u g hg)

/-- Forgetting a document takes it out of the index. -/
theorem Indexed.forget (hx : m.Indexed x) (uri : Text) :
    (m.forget uri).Indexed (x.without uri) := by
  refine ⟨hx.filed.without uri, ?_, ?_, ?_, ?_⟩
  · rw [IdIndex.listing_without]
    exact hx.single.sublist (List.filter_sublist.map _)
  · intro u hu
    have hne : u ≠ uri := by
      rintro rfl
      rw [forget_self] at hu
      cases hu
    rw [forget_at? hne] at hu
    obtain ⟨e, he, rfl⟩ := hx.covers u hu
    refine ⟨e, ?_, rfl⟩
    rw [IdIndex.listing_without]
    exact List.mem_filter.mpr ⟨he, by simpa using hne⟩
  · intro e he
    rw [IdIndex.listing_without, List.mem_filter] at he
    have hne : e.uri ≠ uri := by simpa using he.2
    rw [forget_at? hne]
    exact hx.describes e he.1
  · intro p hp
    obtain ⟨es, hes, hkept, -⟩ := IdIndex.mem_without hp
    rw [hkept]
    refine ((hx.ordered _ hes).filter (·.uri != uri)).imp_of_mem ?_
    intro e f he hf hbefore
    have hne : e.uri ≠ uri := by simpa using (List.mem_filter.mp he).2
    have hnf : f.uri ≠ uri := by simpa using (List.mem_filter.mp hf).2
    rw [Before, forget_at? hne, forget_at? hnf]
    exact hbefore

/-- What is read now comes behind everything that was read before. -/
theorem Indexed.remember {version : Int} {text : Text} (hx : m.Indexed x) (hm : m.Past)
    (hnone : m.at? e.uri = none) (he : e.Describes (Template.read text).template) :
    (m.remember e.uri version text).Indexed (x.file e) := by
  have hperm := IdIndex.perm_listing_file x e
  have hold : ∀ f ∈ x.listing, (m.remember e.uri version text).at? f.uri = m.at? f.uri := by
    intro f hf
    apply remember_at?
    intro huri
    obtain ⟨h, hh, -⟩ := hx.describes f hf
    rw [huri, hnone] at hh
    cases hh
  have hkept : ∀ p ∈ x, p.2.Pairwise fun f g =>
      (m.remember e.uri version text).Before f.uri g.uri := by
    intro p hp
    refine (hx.ordered p hp).imp_of_mem ?_
    intro f g hf hg hbefore
    rw [Before, hold f (IdIndex.mem_listing.mpr ⟨p, hp, hf⟩),
      hold g (IdIndex.mem_listing.mpr ⟨p, hp, hg⟩)]
    exact hbefore
  refine ⟨hx.filed.file e, ?_, ?_, ?_, ?_⟩
  · refine (hperm.map _).nodup_iff.mpr (List.nodup_cons.mpr ⟨?_, hx.single⟩)
    intro hmem
    obtain ⟨f, hf, huri⟩ := List.mem_map.mp hmem
    obtain ⟨h, hh, -⟩ := hx.describes f hf
    rw [huri, hnone] at hh
    cases hh
  · intro u hu
    by_cases hself : u = e.uri
    · exact ⟨e, hperm.mem_iff.mpr List.mem_cons_self, hself.symm⟩
    · rw [remember_at? hself] at hu
      obtain ⟨f, hf, rfl⟩ := hx.covers u hu
      exact ⟨f, hperm.mem_iff.mpr (List.mem_cons_of_mem e hf), rfl⟩
  · intro f hf
    rcases List.mem_cons.mp (hperm.mem_iff.mp hf) with rfl | hf
    · exact ⟨_, remember_self, he⟩
    · rw [hold f hf]
      exact hx.describes f hf
  · intro p hp
    rcases IdIndex.mem_file hp with hp | rfl | ⟨es, hes, rfl⟩
    · exact hkept p hp
    · exact List.pairwise_singleton _ _
    · refine List.pairwise_append.mpr ⟨hkept _ hes, List.pairwise_singleton _ _, ?_⟩
      intro f hf g hg
      obtain rfl := List.mem_singleton.mp hg
      have hlisted := IdIndex.mem_listing.mpr ⟨_, hes, hf⟩
      obtain ⟨h, hh, -⟩ := hx.describes f hlisted
      exact ⟨h, _, (hold f hlisted).trans hh, remember_self, hm f.uri h hh⟩

/-! ## The memory leaves no choice for its index -/

theorem Indexed.mem_listing (hx : m.Indexed x) (hy : m.Indexed y) (he : e ∈ x.listing) :
    e ∈ y.listing := by
  obtain ⟨h, hh, hdescribes⟩ := hx.describes e he
  obtain ⟨f, hf, huri⟩ := hy.covers e.uri (by rw [hh]; rfl)
  obtain ⟨g, hg, hdescribes'⟩ := hy.describes f hf
  rw [huri, hh] at hg
  cases hg
  rw [hdescribes.unique hdescribes' huri.symm]
  exact hf

theorem Indexed.pairwise_entries (hx : m.Indexed x) (id : Text) :
    (x.entries id).Pairwise fun e f => m.Before e.uri f.uri := by
  rw [IdIndex.entries]
  cases hlookup : List.lookup id x with
  | none => exact List.Pairwise.nil
  | some es => exact hx.ordered _ (hx.filed.lookup_eq.mp hlookup)

theorem Indexed.nodup_entries (hx : m.Indexed x) (id : Text) : (x.entries id).Nodup := by
  refine (hx.pairwise_entries id).imp ?_
  rintro e f hbefore rfl
  exact Before.irrefl hbefore

/-- What is indexed under an id depends on the memory alone. -/
theorem Indexed.entries_eq (hx : m.Indexed x) (hy : m.Indexed y) (id : Text) :
    x.entries id = y.entries id := by
  have hmem : ∀ e, e ∈ x.entries id ↔ e ∈ y.entries id := by
    intro e
    rw [hx.filed.mem_entries, hy.filed.mem_entries]
    constructor
    · intro h
      exact ⟨hx.mem_listing hy h.1, h.2⟩
    · intro h
      exact ⟨hy.mem_listing hx h.1, h.2⟩
  have hperm := (List.perm_ext_iff_of_nodup (hx.nodup_entries id) (hy.nodup_entries id)).mpr hmem
  refine hperm.eq_of_pairwise ?_ (hx.pairwise_entries id) (hy.pairwise_entries id)
  intro e f _ _ hef hfe
  exact (hef.asymm hfe).elim

end Memory

end Offside.Document
