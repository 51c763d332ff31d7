import Appliance.Proofs.Text.Cut
import Appliance.Repository.Push
import Mathlib.Data.List.TakeWhile

/-! Targets and the addresses that packages for them are sent to. No name of a target has a slash in
it, so an address cut at its slashes has the target in its last pieces, whatever the repository and
the names are. -/
namespace Appliance

namespace Target

def IsName (name : String) : Prop := name ≠ "" ∧ '/' ∉ name.toList

structure IsPlain (target : Target) : Prop where
  organisation : IsName target.organisation
  bucket : IsName target.bucket
  app : IsName target.app

theorem text_eq_intercalate (target : Target) :
    target.text = "/".intercalate [target.organisation, target.bucket, target.app] := by
  simp [text, String.append_assoc]

theorem IsPlain.cut_text {target : Target} (plain : target.IsPlain) :
    Text.cut '/' target.text.toList =
      [target.organisation, target.bucket, target.app].map String.toList := by
  rw [text_eq_intercalate, String.toList_intercalate]
  refine Text.cut_intercalate (by simp) ?_
  simp [plain.organisation.2, plain.bucket.2, plain.app.2]

theorem read_text {target : Target} (plain : target.IsPlain) : read target.text = .ok target := by
  rw [read, plain.cut_text]
  simp [plain.organisation.1, plain.bucket.1, plain.app.1]

theorem isPlain_of_read {text : String} {target : Target} (taken : read text = .ok target) :
    target.IsPlain ∧ target.text = text := by
  unfold read at taken
  split at taken
  next organisation bucket app pieces =>
    split at taken
    next filled =>
      obtain rfl := Except.ok.inj taken
      have cut : Text.cut '/' text.toList = [organisation, bucket, app].map String.toList := by
        rw [← pieces, List.map_map]
        simp
      have clean : ∀ name ∈ [organisation, bucket, app], '/' ∉ name.toList := fun name listed =>
        Text.not_mem_of_mem_cut (cut ▸ List.mem_map_of_mem listed)
      simp only [List.forall_mem_cons] at clean
      refine ⟨⟨⟨filled.1, clean.1⟩, ⟨filled.2.1, clean.2.1⟩, filled.2.2, clean.2.2.1⟩, ?_⟩
      rw [text_eq_intercalate, ← String.toList_inj, String.toList_intercalate, ← cut]
      exact (Text.join_eq_intercalate _ _).symm.trans (Text.join_cut '/' text.toList)
    next => cases taken
  next => cases taken

theorem read_eq_ok_iff {text : String} {target : Target} :
    read text = .ok target ↔ target.IsPlain ∧ target.text = text :=
  ⟨isPlain_of_read, fun ⟨plain, same⟩ => same ▸ read_text plain⟩

theorem error_of_read {text : String} {error : RepositoryError}
    (refused : read text = .error error) : error = .invalidTarget text := by
  unfold read at refused
  split at refused
  · split at refused
    · cases refused
    · exact (Except.error.inj refused).symm
  · exact (Except.error.inj refused).symm

theorem count_text (target : Target) : target.text.toList.count '/' =
    target.organisation.toList.count '/' + target.bucket.toList.count '/' +
      target.app.toList.count '/' + 2 := by
  have slash : "/".toList.count '/' = 1 := by decide
  simp only [text, String.toList_append, List.count_append, slash]
  omega

/-- Has the text two slashes, with something before, between and after them? -/
def ThreeNames (text : String) : Prop :=
  text.toList.count '/' = 2 ∧ ∃ organisation bucket app : String,
    text = organisation ++ "/" ++ bucket ++ "/" ++ app ∧
      organisation ≠ "" ∧ bucket ≠ "" ∧ app ≠ ""

theorem exists_read_iff {text : String} : (∃ target, read text = .ok target) ↔ ThreeNames text := by
  constructor
  · rintro ⟨target, taken⟩
    obtain ⟨⟨organisation, bucket, app⟩, rfl⟩ := read_eq_ok_iff.1 taken
    refine ⟨?_, _, _, _, rfl, organisation.1, bucket.1, app.1⟩
    rw [count_text, List.count_eq_zero.2 organisation.2, List.count_eq_zero.2 bucket.2,
      List.count_eq_zero.2 app.2]
  · rintro ⟨two, organisation, bucket, app, written, filled⟩
    let target : Target := ⟨organisation, bucket, app⟩
    have written : text = target.text := written
    rw [written, count_text] at two
    simp only [Nat.add_eq_right, Nat.add_eq_zero_iff, List.count_eq_zero] at two
    have ⟨⟨cleanOrganisation, cleanBucket⟩, cleanApp⟩ := two
    have plain : target.IsPlain :=
      ⟨⟨filled.1, cleanOrganisation⟩, ⟨filled.2.1, cleanBucket⟩, filled.2.2, cleanApp⟩
    exact ⟨target, read_eq_ok_iff.2 ⟨plain, written.symm⟩⟩

/-! Addresses. -/

/-- Are two addresses of repositories the same but for slashes at their ends? -/
def SameButSlashes (first second : String) : Prop :=
  ∃ stem m n, first = stem ++ String.ofList (List.replicate m '/') ∧
    second = stem ++ String.ofList (List.replicate n '/')

theorem exists_eq_trimSlashes_append (repository : String) :
    ∃ n, repository = trimSlashes repository ++ String.ofList (List.replicate n '/') := by
  let tail := repository.toList.reverse.takeWhile (· = '/')
  have slashes : tail = List.replicate tail.length '/' :=
    List.eq_replicate_iff.2 ⟨rfl, fun c mem => by simpa using List.mem_takeWhile_imp mem⟩
  refine ⟨tail.length, ?_⟩
  rw [← String.toList_inj, String.toList_append, trimSlashes, String.toList_ofList,
    String.toList_ofList, ← List.reverse_replicate, ← slashes, ← List.reverse_append,
    List.takeWhile_append_dropWhile, List.reverse_reverse]

theorem trimSlashes_append (stem : String) (n : Nat) :
    trimSlashes (stem ++ String.ofList (List.replicate n '/')) = trimSlashes stem := by
  rw [trimSlashes, String.toList_append, String.toList_ofList, List.reverse_append,
    List.reverse_replicate, List.dropWhile_append_of_pos (by simp), trimSlashes]

theorem trimSlashes_eq_iff {first second : String} :
    trimSlashes first = trimSlashes second ↔ SameButSlashes first second := by
  constructor
  · intro same
    obtain ⟨m, left⟩ := exists_eq_trimSlashes_append first
    obtain ⟨n, right⟩ := exists_eq_trimSlashes_append second
    exact ⟨trimSlashes first, m, n, left, same ▸ right⟩
  · rintro ⟨stem, m, n, rfl, rfl⟩
    rw [trimSlashes_append, trimSlashes_append]

theorem url_eq_intercalate (target : Target) (repository : String) :
    target.url repository = "/".intercalate [trimSlashes repository, "organisations",
      target.organisation, "buckets", target.bucket, "apps", target.app] := by
  have words : "/organisations/" = "/" ++ "organisations" ++ "/" ∧
      "/buckets/" = "/" ++ "buckets" ++ "/" ∧ "/apps/" = "/" ++ "apps" ++ "/" := by decide
  simp only [url, words, String.intercalate_cons_cons, String.intercalate_singleton,
    String.append_assoc]

theorem IsPlain.cut_url {target : Target} (plain : target.IsPlain) (repository : String) :
    Text.cut '/' (target.url repository).toList = Text.cut '/' (trimSlashes repository).toList ++
      ["organisations", target.organisation, "buckets", target.bucket, "apps", target.app].map
        String.toList := by
  rw [url_eq_intercalate, String.toList_intercalate]
  -- The words between the names have no slash either, so only the repository is cut further.
  refine Text.cut_intercalate_cons _ (by simp) ?_
  simp [plain.organisation.2, plain.bucket.2, plain.app.2]

theorem url_eq_iff {first second : Target} (plain : first.IsPlain) (alsoPlain : second.IsPlain)
    {repository other : String} :
    first.url repository = second.url other ↔
      first = second ∧ SameButSlashes repository other := by
  rw [← trimSlashes_eq_iff]
  constructor
  · intro same
    have pieces := congrArg (fun url : String => Text.cut '/' url.toList) same
    simp only [plain.cut_url, alsoPlain.cut_url] at pieces
    -- Six pieces stand behind either repository, so both lists are cut in the same place.
    have ⟨stems, names⟩ := List.append_inj' pieces rfl
    have trimmed := String.toList_inj.1 (Text.cut_inj stems)
    have listed := List.map_injective_iff.2 (fun _ _ => String.toList_inj.1) names
    cases first
    cases second
    simp only [List.cons.injEq, true_and, and_true] at listed
    obtain ⟨rfl, rfl, rfl⟩ := listed
    exact ⟨rfl, trimmed⟩
  · rintro ⟨rfl, same⟩
    rw [url, url, same]

/-- A text is read as a target just if it has two slashes with names around them, the target is
written as the text again, and what is refused is named by the text; and two targets that were read
have one address just if they are the same and their repositories are, slashes at the end apart. -/
theorem read_and_url_are_unambiguous :
    (∀ text, (∃ target, read text = .ok target) ↔ ThreeNames text) ∧
    (∀ text target, read text = .ok target → target.text = text) ∧
    (∀ text error, read text = .error error → error = .invalidTarget text) ∧
    ∀ {text otherText : String} {target otherTarget : Target},
      read text = .ok target → read otherText = .ok otherTarget →
      ∀ repository other, target.url repository = otherTarget.url other ↔
        target = otherTarget ∧ SameButSlashes repository other := by
  refine ⟨fun _ => exists_read_iff, fun _ _ taken => (read_eq_ok_iff.1 taken).2,
    fun _ _ refused => error_of_read refused, fun taken otherTaken _ _ => ?_⟩
  exact url_eq_iff (read_eq_ok_iff.1 taken).1 (read_eq_ok_iff.1 otherTaken).1

/-- A repository may end like an address itself, and names may be the words between names. -/
theorem read_and_url_are_unambiguous_of_nested_repository :
    let target : Target := ⟨"apps", "organisations", "buckets"⟩
    let repository := "https://host/organisations/apps/buckets/organisations/apps/buckets"
    ThreeNames "apps/organisations/buckets" ∧ ¬ ThreeNames "apps//buckets" ∧
      read "apps//buckets" = .error (.invalidTarget "apps//buckets") ∧
      read "apps/organisations/buckets" = .ok target ∧
      target.text = "apps/organisations/buckets" ∧
      target.url (repository ++ "//") = target.url repository ∧
      target.url repository ≠ target.url "https://host" := by
  intro target repository
  have ⟨accepts, writes, _, addresses⟩ := read_and_url_are_unambiguous
  have taken : read "apps/organisations/buckets" = .ok target := rfl
  have refused : read "apps//buckets" = .error (.invalidTarget "apps//buckets") := rfl
  have doubled : ¬ ThreeNames "apps//buckets" := fun three => by
    obtain ⟨_, accepted⟩ := (accepts _).2 three
    exact nomatch accepted.symm.trans refused
  have slashes : SameButSlashes (repository ++ "//") repository :=
    ⟨repository, 2, 0, rfl, String.append_empty.symm⟩
  have others : ¬ SameButSlashes repository "https://host" := by
    rw [← trimSlashes_eq_iff]
    decide
  exact ⟨(accepts _).1 ⟨target, taken⟩, doubled, refused, taken, writes _ _ taken,
    (addresses taken taken _ _).2 ⟨rfl, slashes⟩,
    fun same => others ((addresses taken taken _ _).1 same).2⟩

end Target
end Appliance
