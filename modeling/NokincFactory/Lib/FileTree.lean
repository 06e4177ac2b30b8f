/-
  File:      NokincFactory/Lib/FileTree.lean
  Subject:   A tree of folders and files, and files written into it one after another.

  A path is the list of its names, from the root. The tree keeps names as they are.

  Links and other writers are not covered.

  * `FileTree.makeFolders`, `writeBytes`, `chmod`: what a writer does, and how it fails;
  * `FileTree.place`, `placeAll`: a file with the folders above it, and several of them;
  * `Free`: nothing stands in the way of a file;
  * `place_ok`, `placeAll_ok`: then the file is placed, and nothing else changes.
-/
import Mathlib.Data.List.Infix

namespace NokincFactory

/-- What stands at a path. -/
inductive Node (B : Type) where
  | folder
  | file (content : B) (executable : Bool)
deriving DecidableEq

inductive FileError where
  | fileExists | isADirectory | notADirectory | notFound
deriving DecidableEq

/-- What stands at each path. -/
def FileTree (N B : Type) : Type := List N → Option (Node B)

namespace FileTree

variable {N B : Type} [DecidableEq N]

/-! ## 1. Operations -/

def set (tree : FileTree N B) (path : List N) (node : Node B) : FileTree N B :=
  fun p => if p = path then some node else tree p

/-- `mkdir` with `exist_ok=True`, below a folder. -/
def makeFolder (tree : FileTree N B) (path : List N) : Except FileError (FileTree N B) :=
  match tree path with
  | none => .ok (tree.set path .folder)
  | some .folder => .ok tree
  | some (.file _ _) => .error .fileExists

/-- `mkdir` with `parents=True, exist_ok=True`: the folders of the path, from the root on. -/
def makeFolders (tree : FileTree N B) (path : List N) : Except FileError (FileTree N B) :=
  path.inits.foldlM makeFolder tree

/-- `write_bytes`: a file that is new is not executable. -/
def writeBytes (tree : FileTree N B) (path : List N) (content : B) :
    Except FileError (FileTree N B) :=
  match tree path.dropLast with
  | none => .error .notFound
  | some (.file _ _) => .error .notADirectory
  | some .folder =>
    match tree path with
    | none => .ok (tree.set path (.file content false))
    | some .folder => .error .isADirectory
    | some (.file _ executable) => .ok (tree.set path (.file content executable))

/-- `chmod`, as far as it makes a file executable or not. -/
def chmod (tree : FileTree N B) (path : List N) (executable : Bool) :
    Except FileError (FileTree N B) :=
  match tree path with
  | none => .error .notFound
  | some .folder => .ok tree
  | some (.file content _) => .ok (tree.set path (.file content executable))

/-- A file to be placed. -/
structure Entry (N B : Type) where
  path : List N
  content : B
  executable : Bool

/-- The folders above a file, its bytes, and its mode. -/
def place (tree : FileTree N B) (entry : Entry N B) : Except FileError (FileTree N B) := do
  let tree ← tree.makeFolders entry.path.dropLast
  let tree ← tree.writeBytes entry.path entry.content
  tree.chmod entry.path entry.executable

def placeAll (tree : FileTree N B) (entries : List (Entry N B)) :
    Except FileError (FileTree N B) :=
  entries.foldlM place tree

/-! ## 2. One file -/

@[simp] theorem set_same (tree : FileTree N B) (path : List N) (node : Node B) :
    tree.set path node path = some node := if_pos rfl

theorem set_other {tree : FileTree N B} {path p : List N} {node : Node B} (h : p ≠ path) :
    tree.set path node p = tree p := if_neg h

/-- Folders above a path. -/
def Above (p path : List N) : Prop := p <+: path ∧ p ≠ path

/-- Nothing stands in the way of a file at a path. -/
structure Free (tree : FileTree N B) (path : List N) : Prop where
  named : path ≠ []
  above : ∀ p, Above p path → tree p = none ∨ tree p = some .folder
  absent : tree path = none

/-- Where only folders stand, folders are made, and nothing else. -/
theorem foldlM_makeFolder {paths : List (List N)} {tree : FileTree N B}
    (h : ∀ p ∈ paths, tree p = none ∨ tree p = some .folder) :
    ∃ tree', paths.foldlM makeFolder tree = .ok tree' ∧
      (∀ p ∈ paths, tree' p = some .folder) ∧ ∀ p, p ∉ paths → tree' p = tree p := by
  induction paths generalizing tree with
  | nil => exact ⟨tree, rfl, fun p hp => (nomatch hp), fun p _ => rfl⟩
  | cons path paths ih =>
    have hmade : ∃ made, makeFolder tree path = .ok made ∧ made path = some .folder ∧
        ∀ p, p ≠ path → made p = tree p := by
      rcases h path List.mem_cons_self with hnone | hfolder
      · refine ⟨tree.set path .folder, ?_, set_same tree path .folder, fun p hp => set_other hp⟩
        rw [makeFolder, hnone]
      · refine ⟨tree, ?_, hfolder, fun p _ => rfl⟩
        rw [makeFolder, hfolder]
    obtain ⟨made, hstep, hpath, hother⟩ := hmade
    have hrest : ∀ p ∈ paths, made p = none ∨ made p = some .folder := by
      intro p hp
      by_cases heq : p = path
      · exact .inr (heq ▸ hpath)
      · rw [hother p heq]
        exact h p (List.mem_cons_of_mem path hp)
    obtain ⟨tree', hrun, hall, helse⟩ := ih hrest
    refine ⟨tree', ?_, fun p hp => ?_, fun p hp => ?_⟩
    · rw [List.foldlM_cons, hstep]
      exact hrun
    · rcases List.mem_cons.mp hp with rfl | hp
      · by_cases hmem : p ∈ paths
        · exact hall p hmem
        · rw [helse p hmem, hpath]
      · exact hall p hp
    · obtain ⟨hne, hmem⟩ := not_or.mp (List.mem_cons.not.mp hp)
      rw [helse p hmem, hother p hne]

omit [DecidableEq N] in
theorem mem_inits_dropLast {p path : List N} (hpath : path ≠ []) :
    p ∈ path.dropLast.inits ↔ Above p path := by
  rw [List.mem_inits]
  constructor
  · intro h
    refine ⟨h.trans path.dropLast_prefix, ?_⟩
    rintro rfl
    have hlength := h.length_le
    have hpos := List.length_pos_iff.mpr hpath
    rw [List.length_dropLast] at hlength
    omega
  · rintro ⟨hfront, hne⟩
    obtain ⟨rest, rfl⟩ := hfront
    have hrest : rest ≠ [] := by
      rintro rfl
      exact hne (List.append_nil p).symm
    rw [List.dropLast_append_of_ne_nil hrest]
    exact List.prefix_append p _

/-- A file in whose way nothing stands is placed. -/
theorem place_ok {tree : FileTree N B} {entry : Entry N B} (h : Free tree entry.path) :
    ∃ tree', tree.place entry = .ok tree' ∧
      tree' entry.path = some (.file entry.content entry.executable) ∧
      (∀ p, Above p entry.path → tree' p = some .folder) ∧
      ∀ p, ¬ p <+: entry.path → tree' p = tree p := by
  have habove : ∀ p ∈ entry.path.dropLast.inits, tree p = none ∨ tree p = some .folder :=
    fun p hp => h.above p ((mem_inits_dropLast h.named).mp hp)
  obtain ⟨made, hmake, hfolders, hother⟩ := foldlM_makeFolder habove
  have hself : entry.path ∉ entry.path.dropLast.inits :=
    fun hmem => ((mem_inits_dropLast h.named).mp hmem).2 rfl
  have hparent : made entry.path.dropLast = some .folder :=
    hfolders _ ((List.mem_inits _ _).mpr (List.prefix_refl _))
  have habsent : made entry.path = none := (hother _ hself).trans h.absent
  have hwrite : made.writeBytes entry.path entry.content
      = .ok (made.set entry.path (.file entry.content false)) := by
    rw [writeBytes, hparent, habsent]
  have hmode : (made.set entry.path (.file entry.content false)).chmod entry.path entry.executable
      = .ok ((made.set entry.path (.file entry.content false)).set entry.path
        (.file entry.content entry.executable)) := by
    rw [chmod, set_same]
  refine ⟨(made.set entry.path (.file entry.content false)).set entry.path
    (.file entry.content entry.executable), ?_, set_same _ _ _, fun p hp => ?_, fun p hp => ?_⟩
  · rw [place, makeFolders, hmake]
    show (made.writeBytes entry.path entry.content >>= fun tree =>
      tree.chmod entry.path entry.executable) = _
    rw [hwrite]
    exact hmode
  · rw [set_other hp.2, set_other hp.2]
    exact hfolders p ((mem_inits_dropLast h.named).mpr hp)
  · have hne : p ≠ entry.path := fun heq => hp (heq ▸ List.prefix_refl _)
    rw [set_other hne, set_other hne]
    exact hother p fun hmem => hp ((mem_inits_dropLast h.named).mp hmem).1

/-! ## 3. Several files -/

/-- No file is needed as a folder, and none is placed twice. -/
def Separate (entries : List (Entry N B)) : Prop :=
  entries.Pairwise fun e f => ¬ e.path <+: f.path ∧ ¬ f.path <+: e.path

/-- What stands in the tree after the files are placed. -/
structure Placed (tree tree' : FileTree N B) (entries : List (Entry N B)) : Prop where
  files : ∀ entry ∈ entries, tree' entry.path = some (.file entry.content entry.executable)
  folders : ∀ entry ∈ entries, ∀ p, Above p entry.path → tree' p = some .folder
  others : ∀ p, (∀ entry ∈ entries, ¬ p <+: entry.path) → tree' p = tree p

theorem placeAll_ok {tree : FileTree N B} {entries : List (Entry N B)}
    (hseparate : Separate entries) (hfree : ∀ entry ∈ entries, Free tree entry.path) :
    ∃ tree', tree.placeAll entries = .ok tree' ∧ Placed tree tree' entries := by
  induction entries generalizing tree with
  | nil =>
    exact ⟨tree, rfl, fun e he => (nomatch he), fun e he => (nomatch he), fun p _ => rfl⟩
  | cons entry entries ih =>
    obtain ⟨hapart, hrest⟩ := List.pairwise_cons.mp hseparate
    obtain ⟨made, hplace, hfile, hfolders, hother⟩ := place_ok (hfree entry List.mem_cons_self)
    have hfree' : ∀ e ∈ entries, Free made e.path := by
      intro e he
      have hold := hfree e (List.mem_cons_of_mem entry he)
      refine ⟨hold.named, fun p hp => ?_, ?_⟩
      · by_cases hfront : p <+: entry.path
        · by_cases heq : p = entry.path
          · exact absurd (heq ▸ hp.1) (hapart e he).1
          · exact .inr (hfolders p ⟨hfront, heq⟩)
        · rw [hother p hfront]
          exact hold.above p hp
      · rw [hother _ (hapart e he).2]
        exact hold.absent
    obtain ⟨tree', hrun, hplaced⟩ := ih hrest hfree'
    refine ⟨tree', ?_, fun e he => ?_, fun e he p hp => ?_, fun p hp => ?_⟩
    · rw [placeAll, List.foldlM_cons, hplace]
      exact hrun
    · rcases List.mem_cons.mp he with rfl | he
      · rw [hplaced.others e.path fun f hf => (hapart f hf).1, hfile]
      · exact hplaced.files e he
    · rcases List.mem_cons.mp he with rfl | he
      · by_cases hin : ∃ f ∈ entries, p <+: f.path
        · obtain ⟨f, hf, hfront⟩ := hin
          refine hplaced.folders f hf p ⟨hfront, ?_⟩
          rintro rfl
          exact (hapart f hf).2 hp.1
        · rw [hplaced.others p fun f hf hfront => hin ⟨f, hf, hfront⟩]
          exact hfolders p hp
      · exact hplaced.folders e he p hp
    · rw [hplaced.others p fun e he => hp e (List.mem_cons_of_mem entry he)]
      exact hother p (hp entry List.mem_cons_self)

end FileTree

end NokincFactory
