import Offside.Document.Cache

/-! What is found in the cache after each of its operations, and the three ways in which a request
for a document can go. -/
namespace Offside.Document.Cache

variable {c : Cache} {uri u text : Text} {version : Int}

theorem find?_invalidate_self (c : Cache) (uri : Text) : (c.invalidate uri).find? uri = none := by
  rw [find?, invalidate, List.find?_eq_none]
  intro s hs
  have hne := (List.mem_filter.mp hs).2
  simpa using hne

theorem find?_invalidate (c : Cache) (h : u ≠ uri) : (c.invalidate uri).find? u = c.find? u := by
  rw [find?, invalidate, List.find?_filter, find?]
  congr 1
  funext s
  by_cases hs : s.uri = u
  · simp [hs, h]
  · simp [hs]

theorem find?_read_self (c : Cache) (uri : Text) (version : Int) (text : Text) :
    (c.read uri version text).1.find? uri =
      some ⟨uri, version, c.readings, Template.read text⟩ := by
  have hnone := find?_invalidate_self c uri
  rw [find?] at hnone
  rw [find?, read, List.find?_append, hnone]
  simp

theorem find?_read (c : Cache) (version : Int) (text : Text) (h : u ≠ uri) :
    (c.read uri version text).1.find? u = c.find? u := by
  rw [← find?_invalidate c h, find?, read, List.find?_append, find?]
  have hne : ¬ uri = u := fun huri => h huri.symm
  simp [hne]

/-- No reading of the document in this version is there. -/
def Lacks (c : Cache) (uri : Text) (version : Int) : Prop :=
  ∀ s, c.find? uri = some s → s.version ≠ version

/-- What can come of a request for a document. -/
inductive Answers (c : Cache) (uri : Text) (version : Int) (text : Text) :
    Cache × Except AddressError Stored → Prop
  | kept {s : Stored} (hs : c.find? uri = some s) (hversion : s.version = version) :
      Answers c uri version text (c, .ok s)
  | filed {e : IdEntry} (hlacks : c.Lacks uri version)
      (he : idEntry uri (Template.read text) = .ok e) :
      Answers c uri version text
        ({ (c.read uri version text).1 with index := (c.index.without uri).file e },
          .ok ⟨uri, version, c.readings, Template.read text⟩)
  | failed {err : AddressError} (hlacks : c.Lacks uri version)
      (he : idEntry uri (Template.read text) = .error err) :
      Answers c uri version text ((c.read uri version text).1, .error err)

/-- A document is answered as it is at its version, whether it has been read before or not. -/
theorem answers_get (c : Cache) (uri : Text) (version : Int) (text : Text) :
    c.Answers uri version text (c.get uri version text) := by
  rw [get]
  cases hkept : (c.find? uri).filter (·.version == version) with
  | some s =>
    obtain ⟨hs, hversion⟩ := Option.filter_eq_some_iff.mp hkept
    exact .kept hs (by simpa using hversion)
  | none =>
    have hlacks : c.Lacks uri version := by
      intro s hs
      simpa using Option.filter_eq_none_iff.mp hkept s hs
    cases he : idEntry uri (Template.read text) with
    | ok e =>
      simp only [read, he]
      exact .filed hlacks he
    | error err =>
      simp only [read, he]
      exact .failed hlacks he

end Offside.Document.Cache
