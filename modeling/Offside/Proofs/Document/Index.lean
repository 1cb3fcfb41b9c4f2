import Mathlib.Data.List.Nodup
import Offside.Document.Cache

/-! The index under its two operations. Each is described by where the lists and entries of its
result come from, and both keep the index well filed. -/
namespace Offside.Document.IdIndex

variable {x : IdIndex} {e f : IdEntry} {uri id : Text} {es : List IdEntry} {p : Text × List IdEntry}

/-- Each id has one list, which is not empty, and each entry is in the list of its id. -/
structure Filed (x : IdIndex) : Prop where
  keys : (x.map Prod.fst).Nodup
  filled : ∀ p ∈ x, p.2 ≠ []
  own : ∀ p ∈ x, ∀ e ∈ p.2, e.id = p.1

theorem filed_nil : Filed [] := ⟨List.nodup_nil, by simp, by simp⟩

theorem mem_listing : e ∈ x.listing ↔ ∃ p ∈ x, e ∈ p.2 := List.mem_flatMap

/-! ## Leaving a document out -/

/-- What an index keeps without a document are entries that it had. -/
theorem mem_without (h : p ∈ x.without uri) :
    ∃ es, (p.1, es) ∈ x ∧ p.2 = es.filter (·.uri != uri) ∧ p.2 ≠ [] := by
  induction x with
  | nil => cases h
  | cons q x ih =>
    obtain ⟨id, es⟩ := q
    rw [without] at h
    split at h
    · obtain ⟨es', hes', hp⟩ := ih h
      exact ⟨es', List.mem_cons_of_mem _ hes', hp⟩
    · next e kept hkept =>
      rcases List.mem_cons.mp h with rfl | h
      · exact ⟨es, List.mem_cons_self, hkept.symm, by simp⟩
      · obtain ⟨es', hes', hp⟩ := ih h
        exact ⟨es', List.mem_cons_of_mem _ hes', hp⟩

theorem listing_without (x : IdIndex) (uri : Text) :
    (x.without uri).listing = x.listing.filter (·.uri != uri) := by
  induction x with
  | nil => rfl
  | cons q x ih =>
    obtain ⟨id, es⟩ := q
    have hall : listing ((id, es) :: x) = es ++ listing x := rfl
    rw [without, hall, List.filter_append, ← ih]
    split
    · next hnil => rw [hnil, List.nil_append]
    · next e kept hkept =>
      rw [hkept]
      rfl

theorem keys_without (x : IdIndex) (uri : Text) :
    ((x.without uri).map Prod.fst).Sublist (x.map Prod.fst) := by
  induction x with
  | nil => exact List.Sublist.refl []
  | cons q x ih =>
    rw [without]
    split
    · exact ih.cons q.1
    · exact ih.cons_cons q.1

theorem Filed.without (h : x.Filed) (uri : Text) : (x.without uri).Filed := by
  refine ⟨h.keys.sublist (keys_without x uri), ?_, ?_⟩
  · intro p hp
    obtain ⟨es, -, -, hne⟩ := mem_without hp
    exact hne
  · intro p hp e he
    obtain ⟨es, hes, hkept, -⟩ := mem_without hp
    rw [hkept] at he
    exact h.own _ hes e (List.mem_of_mem_filter he)

/-! ## Filing an entry -/

/-- An index with one more entry has it behind the others under its id. -/
theorem mem_file (h : p ∈ x.file e) :
    p ∈ x ∨ p = (e.id, [e]) ∨ ∃ es, (e.id, es) ∈ x ∧ p = (e.id, es ++ [e]) := by
  induction x with
  | nil => exact Or.inr (Or.inl (List.mem_singleton.mp h))
  | cons q x ih =>
    obtain ⟨id, es⟩ := q
    rw [file] at h
    split at h
    · next hid =>
      obtain rfl : id = e.id := by simpa using hid
      rcases List.mem_cons.mp h with rfl | h
      · exact Or.inr (Or.inr ⟨es, List.mem_cons_self, rfl⟩)
      · exact Or.inl (List.mem_cons_of_mem _ h)
    · rcases List.mem_cons.mp h with rfl | h
      · exact Or.inl List.mem_cons_self
      · rcases ih h with hp | hp | ⟨es', hes', hp⟩
        · exact Or.inl (List.mem_cons_of_mem _ hp)
        · exact Or.inr (Or.inl hp)
        · exact Or.inr (Or.inr ⟨es', List.mem_cons_of_mem _ hes', hp⟩)

/-- Putting an entry into an index adds it to the listing, at some place. -/
theorem perm_listing_file (x : IdIndex) (e : IdEntry) :
    (x.file e).listing.Perm (e :: x.listing) := by
  induction x with
  | nil => exact List.Perm.refl [e]
  | cons q x ih =>
    obtain ⟨id, es⟩ := q
    have hall : listing ((id, es) :: x) = es ++ listing x := rfl
    rw [file, hall]
    split
    · have hgrown : listing ((id, es ++ [e]) :: x) = es ++ e :: listing x :=
        List.append_assoc es [e] _
      rw [hgrown]
      exact List.perm_middle
    · have hbehind : listing ((id, es) :: file e x) = es ++ listing (file e x) := rfl
      rw [hbehind]
      exact (ih.append_left es).trans List.perm_middle

theorem keys_file (x : IdIndex) (e : IdEntry) :
    (x.file e).map Prod.fst =
      if e.id ∈ x.map Prod.fst then x.map Prod.fst else x.map Prod.fst ++ [e.id] := by
  induction x with
  | nil => rfl
  | cons q x ih =>
    obtain ⟨id, es⟩ := q
    by_cases hid : id = e.id
    · simp [file, hid]
    · have hne : ¬ e.id = id := fun h => hid h.symm
      simp only [file, beq_iff_eq, hid, if_false, List.map_cons, List.mem_cons, hne, false_or, ih]
      split <;> rfl

/-- An index keeps its order when an entry is put into it. -/
theorem Filed.file (h : x.Filed) (e : IdEntry) : (x.file e).Filed := by
  refine ⟨?_, ?_, ?_⟩
  · rw [keys_file]
    split
    · exact h.keys
    · next hfresh =>
      refine List.Nodup.append h.keys (List.nodup_singleton _) ?_
      simpa using hfresh
  · intro p hp
    rcases mem_file hp with hp | rfl | ⟨es, -, rfl⟩
    · exact h.filled p hp
    · simp
    · simp
  · intro p hp f hf
    rcases mem_file hp with hp | rfl | ⟨es, hes, rfl⟩
    · exact h.own p hp f hf
    · rw [List.mem_singleton.mp hf]
    · rcases List.mem_append.mp hf with hf | hf
      · exact h.own _ hes f hf
      · rw [List.mem_singleton.mp hf]

/-! ## Looking an id up -/

theorem Filed.lookup_eq (h : x.Filed) : List.lookup id x = some es ↔ (id, es) ∈ x := by
  constructor
  · intro hlookup
    obtain ⟨front, rest, rfl, -⟩ := List.lookup_eq_some_iff.mp hlookup
    simp
  · intro hmem
    obtain ⟨front, rest, rfl⟩ := List.append_of_mem hmem
    refine List.lookup_eq_some_iff.mpr ⟨front, rest, rfl, ?_⟩
    intro p hp
    have hkeys := h.keys
    rw [List.map_append, List.nodup_append] at hkeys
    have hne : p.1 ≠ id := hkeys.2.2 p.1 (List.mem_map_of_mem hp) id (by simp)
    simpa using hne.symm

/-- What is found under an id are the entries that declare it. -/
theorem Filed.mem_entries (h : x.Filed) : e ∈ x.entries id ↔ e ∈ x.listing ∧ e.id = id := by
  constructor
  · intro he
    rw [entries] at he
    cases hlookup : List.lookup id x with
    | none => simp [hlookup] at he
    | some es =>
      rw [hlookup] at he
      have hmem := h.lookup_eq.mp hlookup
      exact ⟨mem_listing.mpr ⟨_, hmem, he⟩, h.own _ hmem e he⟩
  · rintro ⟨he, rfl⟩
    obtain ⟨p, hp, he⟩ := mem_listing.mp he
    have hlookup : List.lookup e.id x = some p.2 := by
      rw [h.own p hp e he]
      exact h.lookup_eq.mpr hp
    rw [entries, hlookup]
    exact he

end Offside.Document.IdIndex
