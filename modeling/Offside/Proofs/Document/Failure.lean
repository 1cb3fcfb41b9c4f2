import Offside.Proofs.Document.Index
import Offside.Proofs.Document.Refinement

/-! A request for a document that fails. The document is stored before its id is made out, and its
entries are gone by then: what was known of it is lost, and the next request for it does not fail.
-/
namespace Offside.Document.Cache

variable {c : Cache} {uri u text other : Text} {version : Int} {err : AddressError}

theorem idEntry_eq_error :
    idEntry uri (Template.read text) = .error err ↔
      (Template.read text).template.id = none ∧ Uri.templateId uri = .error err := by
  rw [idEntry]
  rcases Template.id_read text with ⟨hid, -, -⟩ | ⟨v, -, hid, hne⟩
  · rw [hid]
    cases Uri.templateId uri with
    | ok id => simp [Except.map]
    | error err' => simp [Except.map]
  · rw [hid]
    cases hlogical : logicalId v with
    | nil => exact (hne hlogical).elim
    | cons x id => simp

/-- A request fails if the document has to be read, declares no id and has an address that gives
none. -/
theorem get_eq_error :
    (c.get uri version text).2 = .error err ↔
      c.Lacks uri version ∧ (Template.read text).template.id = none ∧
        Uri.templateId uri = .error err := by
  rw [← idEntry_eq_error]
  have hanswers := answers_get c uri version text
  generalize c.get uri version text = answer at hanswers
  cases hanswers with
  | kept hs hversion =>
    have hheld : ¬ c.Lacks uri version := fun hlacks => hlacks _ hs hversion
    simp [hheld]
  | filed hlacks he => simp [he]
  | failed hlacks he => simp [he, hlacks]

/-- What a request that fails leaves. -/
theorem get_of_error (h : (c.get uri version text).2 = .error err) :
    (c.get uri version text).1 = (c.read uri version text).1 := by
  have hanswers := answers_get c uri version text
  generalize c.get uri version text = answer at h hanswers
  cases hanswers with
  | kept | filed => cases h
  | failed => rfl

/-- A request that fails is not without effect. The document is there as it was just read, where
this version was not before; its entries are gone from the index, and the next request for it
succeeds. Other documents and their entries stay as they were. -/
theorem get_failed (h : (c.get uri version text).2 = .error err) :
    ∃ d, c.get uri version text = (d, .error err) ∧ c.Lacks uri version ∧
      d.find? uri = some ⟨uri, version, c.readings, Template.read text⟩ ∧
      (∀ other, d.get uri version other =
        (d, .ok ⟨uri, version, c.readings, Template.read text⟩)) ∧
      (∀ u, u ≠ uri → d.find? u = c.find? u) ∧
      d.index.listing = c.index.listing.filter (·.uri != uri) := by
  obtain ⟨hlacks, -, -⟩ := get_eq_error.mp h
  have hself := find?_read_self c uri version text
  refine ⟨(c.read uri version text).1, ?_, hlacks, hself, ?_, ?_, ?_⟩
  · rw [← get_of_error h, ← h]
  · intro other
    have hanswers := answers_get (c.read uri version text).1 uri version other
    generalize (c.read uri version text).1.get uri version other = answer at hanswers
    cases hanswers with
    | kept hs _ =>
      rw [hself] at hs
      cases hs
      rfl
    | filed hlacked _ | failed hlacked _ => exact (hlacked _ hself rfl).elim
  · intro u hu
    exact find?_read c version text hu
  · exact IdIndex.listing_without c.index uri

/-- An address that gives no id, since a bracket in it is not closed. -/
def brokenUri : Text := "file://[x/a.collie".toList

/-- A document at such an address that declares its id. -/
def declaredTrail : List Action := [.get brokenUri 1 "#id nav\n".toList]

/-- Its next version loses the id. -/
theorem exists_run_declaredTrail :
    ∃ c, run declaredTrail = .ok c ∧ (c.find? brokenUri).map Stored.version = some 1 ∧
      (c.get brokenUri 2 "div\n".toList).2 = .error .unbalancedBrackets := by
  have hcomputed : (run declaredTrail).toOption.map (fun c =>
      (c.find? brokenUri).map Stored.version) = some (some 1) := by decide +kernel
  obtain ⟨c, hrun, hstored⟩ := exists_run hcomputed
  refine ⟨c, hrun, hstored, get_eq_error.mpr ⟨?_, by decide +kernel, by decide +kernel⟩⟩
  intro s hs hversion
  rw [hs, Option.map_some, hversion] at hstored
  cases hstored

theorem get_failed_declaredTrail :
    ∃ c d, run declaredTrail = .ok c ∧
      (c.get brokenUri 2 "div\n".toList).2 = .error .unbalancedBrackets ∧
      c.get brokenUri 2 "div\n".toList = (d, .error .unbalancedBrackets) ∧
      d.find? brokenUri = some ⟨brokenUri, 2, c.readings, Template.read "div\n".toList⟩ := by
  obtain ⟨c, hrun, -, h⟩ := exists_run_declaredTrail
  obtain ⟨d, hget, -, hstored, -⟩ := get_failed h
  exact ⟨c, d, hrun, h, hget, hstored⟩

/-- A request that fails can change what is there in the cache. -/
theorem not_get_failed_unchanged :
    ¬ ∀ (as : List Action) (c : Cache) (uri text : Text) (version : Int) (err : AddressError),
      run as = .ok c → (c.get uri version text).2 = .error err →
        ∀ u, (c.get uri version text).1.find? u = c.find? u := by
  intro hunchanged
  obtain ⟨c, hrun, hstored, h⟩ := exists_run_declaredTrail
  have hread := find?_read_self c brokenUri 2 "div\n".toList
  rw [← get_of_error h, hunchanged _ c _ _ _ _ hrun h] at hread
  rw [hread] at hstored
  cases hstored

end Offside.Document.Cache
