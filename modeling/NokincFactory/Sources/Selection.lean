/-
  File:      NokincFactory/Sources/Selection.lean
  Subject:   Which files of a repository tree are read for a question.

  Case folding and the search of a pattern are parameters.

  * `ranks_total`, `ranks_trans`: the order of the candidates;
  * `candidates_perm`: these are the entries that nothing excludes;
  * `Admissible`: what an entry that is asked for looks like;
  * `selection_lawful`: bounds, ranking, what was passed over, and that the order in which the
    tree lists its entries does not matter.
-/
import NokincFactory.Adapters.GithubRepositoryReader
import Mathlib.Data.List.Sort
import Mathlib.Data.List.Perm.Subperm

namespace NokincFactory.RepositoryReader

open SourceLibraries

section Ranking

variable [SourceLibraries] {tokens : List (List Char)} {a b c : GitHubTreeEntry}

/-! ## 1. The order of the candidates -/

theorem ranks_total (tokens : List (List Char)) (a b : GitHubTreeEntry) :
    Ranks tokens a b ∨ Ranks tokens b a := by
  unfold Ranks
  rcases lt_trichotomy (score tokens a) (score tokens b) with h | h | h
  · exact Or.inr (Or.inl h)
  · rcases le_total (casefoldText a.path) (casefoldText b.path) with hp | hp
    · exact Or.inl (Or.inr ⟨h, hp⟩)
    · exact Or.inr (Or.inr ⟨h.symm, hp⟩)
  · exact Or.inl (Or.inl h)

theorem ranks_trans (h : Ranks tokens a b) (h' : Ranks tokens b c) : Ranks tokens a c := by
  unfold Ranks at *
  rcases h with h | ⟨h, hp⟩
  · rcases h' with h' | ⟨h', -⟩
    · exact Or.inl (by omega)
    · exact Or.inl (by omega)
  · rcases h' with h' | ⟨h', hp'⟩
    · exact Or.inl (by omega)
    · exact Or.inr ⟨by omega, hp.trans hp'⟩

instance : Std.Total (Ranks tokens) := ⟨ranks_total tokens⟩

instance : IsTrans GitHubTreeEntry (Ranks tokens) := ⟨fun _ _ _ => ranks_trans⟩

/-- Entries that rank before each other have one path, folded. -/
theorem ranks_antisymm (h : Ranks tokens a b) (h' : Ranks tokens b a) :
    casefoldText a.path = casefoldText b.path := by
  unfold Ranks at *
  rcases h with h | ⟨h, hp⟩
  · rcases h' with h' | ⟨h', -⟩
    · omega
    · omega
  · rcases h' with h' | ⟨-, hp'⟩
    · omega
    · exact le_antisymm hp hp'

variable {maxFileBytes : ℕ} {entries : List GitHubTreeEntry} {question : String}

/-- The entries that nothing excludes. -/
def eligible (maxFileBytes : ℕ) (entries : List GitHubTreeEntry) : List GitHubTreeEntry :=
  entries.filter fun entry => ¬ Excluded maxFileBytes entry

theorem candidates_perm :
    (candidates maxFileBytes entries question).Perm (eligible maxFileBytes entries) :=
  List.perm_insertionSort _ _

theorem candidates_ranked :
    (candidates maxFileBytes entries question).Pairwise (Ranks (queryTokens question)) :=
  List.pairwise_insertionSort _ _

/-- The candidates of a tree whose eligible paths differ, folded, in whichever order it lists
them. -/
theorem candidates_of_perm {entries' : List GitHubTreeEntry} (hperm : entries'.Perm entries)
    (hdistinct : ∀ a ∈ eligible maxFileBytes entries, ∀ b ∈ eligible maxFileBytes entries,
      casefoldText a.path = casefoldText b.path → a = b) :
    candidates maxFileBytes entries' question = candidates maxFileBytes entries question := by
  have heligible : (eligible maxFileBytes entries').Perm (eligible maxFileBytes entries) :=
    hperm.filter _
  have hsame : (candidates maxFileBytes entries' question).Perm
      (candidates maxFileBytes entries question) :=
    candidates_perm.trans (heligible.trans candidates_perm.symm)
  refine List.Perm.eq_of_pairwise (fun a b ha hb hab hba => ?_) candidates_ranked
    candidates_ranked hsame
  exact hdistinct a (heligible.subset (candidates_perm.subset ha)) b (candidates_perm.subset hb)
    (ranks_antisymm hab hba)

/-! ## 2. What is selected -/

/-- What an entry that is asked for looks like: a blob that is no link, of a text extension,
without a part that names secrets, below the root and no larger than one file may be. -/
structure Admissible (maxFileBytes : ℕ) (entry : GitHubTreeEntry) : Prop where
  blob : entry.type = .blob
  noLink : entry.mode ≠ "120000"
  relative : posixAbsolute entry.path.toList = false
  below : ['.', '.'] ∉ posixParts entry.path.toList
  extension : entry.suffix ∈ textExtensions
  parts : ∀ part ∈ entry.parts, part ∉ sensitiveSegments
  noEnv : ¬ ".env".toList <+: entry.name.toList
  sized : ∃ size, entry.size = some size ∧ size ≤ maxFileBytes

theorem admissible_of_not_excluded {entry : GitHubTreeEntry} (h : ¬ Excluded maxFileBytes entry) :
    Admissible maxFileBytes entry := by
  unfold Excluded at h
  simp only [not_or, not_not, not_exists, not_and] at h
  obtain ⟨hblob, hmode, habsolute, hbelow, hextension, -, hparts, henv, hsize, hbound⟩ := h
  refine ⟨hblob, hmode, Bool.not_eq_true _ ▸ habsolute, hbelow, hextension, hparts, henv, ?_⟩
  obtain ⟨size, hsome⟩ := Option.ne_none_iff_exists'.mp hsize
  refine ⟨size, hsome, ?_⟩
  unfold sizeOf at hbound
  rw [hsome] at hbound
  exact not_lt.mp hbound

theorem Reader.mem_selected {r : Reader} {entry : GitHubTreeEntry}
    (h : entry ∈ r.selectSources entries question) :
    entry ∈ entries ∧ Admissible r.maxFileBytes entry := by
  have hcandidate := (Greedy.pick_sublist _ _ _).subset h
  obtain ⟨hmem, hnot⟩ := List.mem_filter.mp (candidates_perm.subset hcandidate)
  exact ⟨hmem, admissible_of_not_excluded (of_decide_eq_true hnot)⟩

theorem Reader.selected_length (r : Reader) (entries : List GitHubTreeEntry) (question : String) :
    (r.selectSources entries question).length ≤ r.maxFiles := by
  have h : 0 + (r.selectSources entries question).length ≤ r.maxFiles :=
    Greedy.pick_length (candidates r.maxFileBytes entries question) 0 0 r.files.1
  rwa [Nat.zero_add] at h

theorem Reader.selected_total (r : Reader) (entries : List GitHubTreeEntry) (question : String) :
    Greedy.total sizeOf (r.selectSources entries question) ≤ r.maxTotalBytes := by
  have h : 0 + Greedy.total sizeOf (r.selectSources entries question) ≤ r.maxTotalBytes :=
    Greedy.pick_total (candidates r.maxFileBytes entries question) 0 0 (Nat.zero_le _)
  rwa [Nat.zero_add] at h

end Ranking

/-- **The selection**: of every tree and for every question, no more entries are asked for than
the file limit says and the byte limit covers; each is an entry of the tree that nothing excludes,
none more often than the tree lists it, and they stand in the order of their ranks. An eligible
entry that is not asked for had no place or no room beside selected entries that rank before it.
Where no two eligible paths are the same but for their case, the order in which the tree lists its
entries makes no difference. -/
theorem selection_lawful [SourceLibraries] (r : Reader) (entries : List GitHubTreeEntry)
    (question : String) :
    (r.selectSources entries question).Subperm (eligible r.maxFileBytes entries) ∧
    (∀ entry ∈ r.selectSources entries question, Admissible r.maxFileBytes entry) ∧
    (r.selectSources entries question).length ≤ r.maxFiles ∧
    Greedy.total sizeOf (r.selectSources entries question) ≤ r.maxTotalBytes ∧
    (r.selectSources entries question).Pairwise (Ranks (queryTokens question)) ∧
    (∀ entry ∈ eligible r.maxFileBytes entries, entry ∉ r.selectSources entries question →
      ∃ better, better <+: r.selectSources entries question ∧
        (∀ b ∈ better, Ranks (queryTokens question) b entry) ∧
        (better.length = r.maxFiles ∨
          r.maxTotalBytes < Greedy.total sizeOf better + sizeOf entry)) ∧
    ∀ entries' : List GitHubTreeEntry, entries'.Perm entries →
      (∀ a ∈ eligible r.maxFileBytes entries, ∀ b ∈ eligible r.maxFileBytes entries,
        casefoldText a.path = casefoldText b.path → a = b) →
      r.selectSources entries' question = r.selectSources entries question := by
  have hsub : (r.selectSources entries question).Sublist
      (candidates r.maxFileBytes entries question) := Greedy.pick_sublist _ 0 0
  refine ⟨hsub.subperm.trans candidates_perm.subperm, fun entry h => (r.mem_selected h).2,
    r.selected_length entries question, r.selected_total entries question,
    candidates_ranked.sublist hsub, fun entry hentry hnot => ?_, fun entries' hperm hdistinct => ?_⟩
  · exact Greedy.passed_over candidates_ranked r.files.1 (candidates_perm.symm.subset hentry) hnot
  · unfold Reader.selectSources
    rw [candidates_of_perm hperm hdistinct]

end NokincFactory.RepositoryReader
