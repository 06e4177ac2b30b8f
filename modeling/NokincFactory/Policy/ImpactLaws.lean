/-
  File:      NokincFactory/Policy/ImpactLaws.lean
  Subject:   Each change contributes by itself, and what sensitive paths are classified as.

  * `contributed`: the classes of one change;
  * `classify_sound`, `classify_returns`: the classification, from what is contributed;
  * `Homomorphic`: the union law, and what follows from it;
  * `Declared`, `NeverOpen`: what the declared paths promise of a path.
-/
import NokincFactory.Policy.Impact

namespace NokincFactory

namespace Impact

section Laws

variable [Re] {registry : SecuritySensitiveRegistry}

/-! ## 1. What a change contributes -/

/-- What one change contributes by itself. -/
def contribution (registry : SecuritySensitiveRegistry) (change : FileChange) :
    Except ReError Collected :=
  classifyChange registry (∅, []) change

/-- The classes that it contributes. -/
def contributed (registry : SecuritySensitiveRegistry) (change : FileChange) :
    Finset ImpactClass :=
  match contribution registry change with
  | .ok part => part.1
  | .error _ => ∅

theorem contributed_of_ok {change : FileChange} {part : Collected}
    (h : contribution registry change = .ok part) : contributed registry change = part.1 := by
  unfold contributed
  rw [h]

/-- A round adds what its change contributes. -/
theorem classifyChange_ok {c out : Collected} {change : FileChange} :
    classifyChange registry c change = .ok out ↔
      ∃ part, contribution registry change = .ok part ∧ out = (c.1 ∪ part.1, c.2 ++ part.2) := by
  unfold contribution classifyChange
  by_cases hknown : change.suffix ∉ registry.knownExtensions.map String.toList
  · simp only [if_pos hknown, Except.pure_ok]
    constructor
    · intro h
      exact ⟨_, rfl, by simp [← h]⟩
    · intro ⟨part, hpart, hout⟩
      simp [← hpart, hout]
  · by_cases hcosmetic : change.isCosmetic = true
    · simp only [if_neg hknown, if_pos hcosmetic, Except.pure_ok]
      constructor
      · intro h
        exact ⟨_, rfl, by simp [← h]⟩
      · intro ⟨part, hpart, hout⟩
        simp [← hpart, hout]
    · simp only [if_neg hknown, if_neg hcosmetic, Except.bind_ok, Except.pure_ok]
      constructor
      · intro ⟨names, hnames, h⟩
        exact ⟨_, ⟨names, hnames, rfl⟩, by simp [← h]⟩
      · intro ⟨part, ⟨names, hnames, hpart⟩, hout⟩
        exact ⟨names, hnames, by simp [← hpart, hout]⟩

omit [Re] in
theorem addWhen_nonempty {p : Prop} [Decidable p] {impact : ImpactClass} {reason : String}
    {c : Collected} (h : p ∨ c.1.Nonempty) : (addWhen p impact reason c).1.Nonempty := by
  unfold addWhen
  by_cases hp : p
  · rw [if_pos hp]
    exact Finset.insert_nonempty _ _
  · rw [if_neg hp]
    exact h.resolve_left hp

omit [Re] in
/-- A class that was added stays. -/
theorem mem_addWhen {p : Prop} [Decidable p] {impact other : ImpactClass} {reason : String}
    {c : Collected} (h : other ∈ c.1) : other ∈ (addWhen p impact reason c).1 := by
  unfold addWhen
  by_cases hp : p
  · rw [if_pos hp]
    exact Finset.mem_insert_of_mem h
  · rw [if_neg hp]
    exact h

omit [Re] in
/-- Every file has a class. -/
theorem fileClasses_nonempty (change : FileChange) (names : Finset String) :
    (fileClasses registry change names).1.Nonempty := by
  unfold fileClasses
  exact addWhen_nonempty (Finset.eq_empty_or_nonempty _)

/-- And every change contributes one. -/
theorem contribution_nonempty {change : FileChange} {part : Collected}
    (h : contribution registry change = .ok part) : part.1.Nonempty := by
  unfold contribution classifyChange at h
  split at h
  · obtain rfl := Except.pure_ok.mp h
    exact Finset.insert_nonempty _ _
  · split at h
    · obtain rfl := Except.pure_ok.mp h
      exact Finset.insert_nonempty _ _
    · obtain ⟨names, -, h⟩ := Except.bind_ok.mp h
      obtain rfl := Except.pure_ok.mp h
      exact (fileClasses_nonempty change names).mono Finset.subset_union_right

/-! ## 2. What the classification answers -/

/-- The classes of a whole list, before `COSMETIC` is dropped. -/
def gathered (registry : SecuritySensitiveRegistry) (surfaceChanged newDependencies : Bool)
    (changes : List FileChange) : Finset ImpactClass :=
  (flagged surfaceChanged newDependencies).1 ∪ changes.toFinset.biUnion (contributed registry)

/-- The loop returns if each change contributes, and gathers what they contribute. -/
theorem loop_ok {changes : List FileChange} {start out : Collected}
    (h : changes.foldlM (classifyChange registry) start = .ok out) :
    (∀ change ∈ changes, ∃ part, contribution registry change = .ok part) ∧
      out.1 = start.1 ∪ changes.toFinset.biUnion (contributed registry) := by
  induction changes generalizing start with
  | nil =>
      obtain rfl := Except.pure_ok.mp h
      simp
  | cons change changes ih =>
      rw [List.foldlM_cons, Except.bind_ok] at h
      obtain ⟨next, hnext, h⟩ := h
      obtain ⟨part, hpart, rfl⟩ := classifyChange_ok.mp hnext
      obtain ⟨hall, hout⟩ := ih h
      refine ⟨List.forall_mem_cons.mpr ⟨⟨part, hpart⟩, hall⟩, ?_⟩
      rw [hout, List.toFinset_cons, Finset.biUnion_insert, contributed_of_ok hpart,
        Finset.union_assoc]

theorem loop_returns {changes : List FileChange} (start : Collected)
    (h : ∀ change ∈ changes, ∃ part, contribution registry change = .ok part) :
    ∃ out, changes.foldlM (classifyChange registry) start = .ok out := by
  induction changes generalizing start with
  | nil => exact ⟨start, rfl⟩
  | cons change changes ih =>
      obtain ⟨⟨part, hpart⟩, hall⟩ := List.forall_mem_cons.mp h
      obtain ⟨out, hout⟩ := ih (start.1 ∪ part.1, start.2 ++ part.2) hall
      refine ⟨out, ?_⟩
      rw [List.foldlM_cons, Except.bind_ok]
      exact ⟨_, classifyChange_ok.mpr ⟨part, hpart, rfl⟩, hout⟩

omit [Re] in
theorem dropCosmetic_biUnion (classes : Finset ImpactClass) :
    (dropCosmetic classes).biUnion invalidates = classes.biUnion invalidates := by
  unfold dropCosmetic
  by_cases h : (classes \ {.cosmetic}).Nonempty
  · rw [if_pos h]
    ext evidence
    rw [Finset.mem_biUnion, Finset.mem_biUnion]
    constructor
    · intro ⟨impact, hmem, he⟩
      exact ⟨impact, Finset.mem_of_mem_erase hmem, he⟩
    · intro ⟨impact, hmem, he⟩
      -- a cosmetic change invalidates nothing
      refine ⟨impact, Finset.mem_erase.mpr ⟨fun hc => ?_, hmem⟩, he⟩
      rw [hc] at he
      exact absurd he (Finset.notMem_empty _)
  · rw [if_neg h]

/-- Some changes have a class, whatever the flags. -/
theorem gathered_nonempty {changes : List FileChange} (hne : changes ≠ [])
    (h : ∀ change ∈ changes, ∃ part, contribution registry change = .ok part)
    (surfaceChanged newDependencies : Bool) :
    (gathered registry surfaceChanged newDependencies changes).Nonempty := by
  obtain ⟨change, hchange⟩ := List.exists_mem_of_ne_nil _ hne
  obtain ⟨part, hpart⟩ := h change hchange
  obtain ⟨impact, himpact⟩ := contribution_nonempty hpart
  refine ⟨impact, Finset.mem_union_right _ (Finset.mem_biUnion.mpr ⟨change, ?_, ?_⟩)⟩
  · exact List.mem_toFinset.mpr hchange
  · rw [contributed_of_ok hpart]
    exact himpact

theorem classify_sound {changes : List FileChange} (hne : changes ≠ [])
    {surfaceChanged newDependencies : Bool} {result : ImpactResult}
    (h : classify changes registry surfaceChanged newDependencies = .ok result) :
    (∀ change ∈ changes, ∃ part, contribution registry change = .ok part) ∧
      result.classes = dropCosmetic (gathered registry surfaceChanged newDependencies changes) ∧
      result.invalidated =
        (gathered registry surfaceChanged newDependencies changes).biUnion invalidates := by
  unfold classify at h
  obtain ⟨collected, hloop, h⟩ := Except.bind_ok.mp h
  obtain ⟨hall, hcollected⟩ := loop_ok hloop
  have hsame : collected.1 = gathered registry surfaceChanged newDependencies changes := hcollected
  have hsome : ¬ collected.1 = ∅ := by
    rw [hsame]
    exact (gathered_nonempty hne hall _ _).ne_empty
  obtain rfl := Except.pure_ok.mp h
  unfold addWhen
  rw [if_neg hsome, hsame]
  exact ⟨hall, rfl, dropCosmetic_biUnion _⟩

theorem classify_returns {changes : List FileChange} (surfaceChanged newDependencies : Bool)
    (h : ∀ change ∈ changes, ∃ part, contribution registry change = .ok part) :
    ∃ result, classify changes registry surfaceChanged newDependencies = .ok result := by
  obtain ⟨collected, hloop⟩ := loop_returns (flagged surfaceChanged newDependencies) h
  exact ⟨_, Except.bind_ok.mpr ⟨collected, hloop, rfl⟩⟩

theorem gathered_append (surfaceChanged newDependencies : Bool) (a b : List FileChange) :
    gathered registry surfaceChanged newDependencies (a ++ b) =
      gathered registry surfaceChanged newDependencies a ∪
        gathered registry surfaceChanged newDependencies b := by
  unfold gathered
  rw [List.toFinset_append, Finset.union_biUnion, Finset.union_union_distrib_left]

omit [Re] in
/-- Dropping `COSMETIC` first and last, or last only. -/
theorem dropCosmetic_union (a b : Finset ImpactClass) :
    dropCosmetic (dropCosmetic a ∪ dropCosmetic b) = dropCosmetic (a ∪ b) := by
  have hmem : ∀ c impact, impact ∈ dropCosmetic c ↔
      impact ∈ c ∧ (impact = .cosmetic → ∀ other ∈ c, other = .cosmetic) := by
    intro c impact
    unfold dropCosmetic
    by_cases h : (c \ {.cosmetic}).Nonempty
    · obtain ⟨other, hother⟩ := h
      rw [if_pos ⟨other, hother⟩, Finset.mem_erase]
      obtain ⟨hin, hne⟩ := Finset.mem_sdiff.mp hother
      constructor
      · intro ⟨hc, hm⟩
        exact ⟨hm, fun he => absurd he hc⟩
      · intro ⟨hm, hall⟩
        exact ⟨fun he => hne (Finset.mem_singleton.mpr (hall he other hin)), hm⟩
    · rw [if_neg h]
      refine ⟨fun hm => ⟨hm, fun _ other ho => ?_⟩, fun hm => hm.1⟩
      by_contra hne
      exact h ⟨other, Finset.mem_sdiff.mpr ⟨ho, fun hs => hne (Finset.mem_singleton.mp hs)⟩⟩
  ext impact
  simp only [hmem, Finset.mem_union]
  constructor
  · intro ⟨hm, hall⟩
    refine ⟨hm.imp And.left And.left, fun hc other ho => ?_⟩
    by_contra hne
    refine hne (hall hc other ?_)
    exact ho.imp (fun h => ⟨h, fun he => absurd he hne⟩) fun h => ⟨h, fun he => absurd he hne⟩
  · intro ⟨hm, hall⟩
    refine ⟨hm.imp (fun h => ⟨h, fun hc other ho => hall hc other (.inl ho)⟩)
      fun h => ⟨h, fun hc other ho => hall hc other (.inr ho)⟩, fun hc other ho => ?_⟩
    exact hall hc other (ho.imp And.left And.left)

/-- The union law of a registry under some flags. -/
structure Homomorphic (registry : SecuritySensitiveRegistry)
    (surfaceChanged newDependencies : Bool) : Prop where
  /-- a list is classified where both its parts are -/
  union : ∀ a b, a ≠ [] → b ≠ [] → ∀ first second,
    classify a registry surfaceChanged newDependencies = .ok first →
    classify b registry surfaceChanged newDependencies = .ok second →
    ∃ result, classify (a ++ b) registry surfaceChanged newDependencies = .ok result ∧
      result.invalidated = first.invalidated ∪ second.invalidated ∧
      result.classes = dropCosmetic (first.classes ∪ second.classes)
  /-- and only there -/
  parts : ∀ a b result, classify (a ++ b) registry surfaceChanged newDependencies = .ok result →
    ∃ first second, classify a registry surfaceChanged newDependencies = .ok first ∧
      classify b registry surfaceChanged newDependencies = .ok second
  /-- order and repetition do not count -/
  same : ∀ a b, (∀ change, change ∈ a ↔ change ∈ b) → ∀ first,
    classify a registry surfaceChanged newDependencies = .ok first →
    ∃ second, classify b registry surfaceChanged newDependencies = .ok second ∧
      second.classes = first.classes ∧ second.invalidated = first.invalidated
  /-- more changes invalidate no less -/
  monotone : ∀ a b, a ≠ [] → a ⊆ b → ∀ first second,
    classify a registry surfaceChanged newDependencies = .ok first →
    classify b registry surfaceChanged newDependencies = .ok second →
    first.invalidated ⊆ second.invalidated

/-! ## 3. Sensitive paths -/

/-- A path as it is given, and without a leading `./`. -/
def spellings (path : String) : List (List Char) :=
  [path.toList, removePrefix "./".toList path.toList]

/-- A path matches a declared pattern, or one with its leading `**/` removed. -/
def Declared (registry : SecuritySensitiveRegistry) (path : String) : Prop :=
  ∃ pattern ∈ registry.paths, ∃ name ∈ spellings path,
    fnmatch name pattern.toList = true ∨
      ∃ rest, pattern.toList = "**/".toList ++ rest ∧ fnmatch name rest = true

/-- Where a path is declared, it is sensitive, and what changes there is classified so. -/
structure NeverOpen (registry : SecuritySensitiveRegistry) (path : String) : Prop where
  sensitive : Declared registry path → registry.pathIsSensitive path = true
  classified : Declared registry path → ∀ changes surfaceChanged newDependencies result change,
    classify changes registry surfaceChanged newDependencies = .ok result →
    change ∈ changes → change.path = path →
    change.suffix ∈ registry.knownExtensions.map String.toList → change.isCosmetic = false →
    ImpactClass.securitySensitive ∈ result.classes

/-- A path starts with something else than a dot or a slash. -/
def PlainStart (path : String) : Prop := ∀ c ∈ path.toList.head?, c ≠ '.' ∧ c ≠ '/'

omit [Re] in
theorem lstripped_of_plain {path : String} (h : PlainStart path) : lstripped path = path.toList := by
  unfold lstripped
  unfold PlainStart at h
  cases hp : path.toList with
  | nil => rfl
  | cons c rest =>
      rw [hp] at h
      obtain ⟨hdot, hslash⟩ := h c rfl
      exact List.dropWhile_cons_of_neg (by simp [hdot, hslash])

omit [Re] in
theorem spelling_of_plain {path : String} (h : PlainStart path) {name : List Char}
    (hn : name ∈ spellings path) : name = path.toList := by
  have hsame : removePrefix "./".toList path.toList = path.toList := by
    unfold removePrefix
    refine if_neg fun hlead => ?_
    obtain ⟨rest, hrest⟩ := List.isPrefixOf_iff_prefix.mp hlead
    have hhead : path.toList.head? = some '.' := by
      rw [← hrest]
      rfl
    exact (h '.' hhead).1 rfl
  unfold spellings at hn
  rw [hsame] at hn
  simpa using hn

omit [Re] in
theorem lstripped_shorter {path : String} (h : ¬ PlainStart path) :
    (lstripped path).length < path.toList.length := by
  unfold PlainStart at h
  unfold lstripped
  cases hp : path.toList with
  | nil =>
      rw [hp] at h
      exact absurd (fun c hc => nomatch hc) h
  | cons c rest =>
      have hc : c = '.' ∨ c = '/' := by
        rw [hp] at h
        by_contra hnot
        refine h fun d hd => ?_
        obtain rfl : c = d := by simpa using hd
        exact not_or.mp hnot
      have hdrop : (c :: rest).dropWhile (fun c => c = '.' || c = '/') =
          rest.dropWhile fun c => c = '.' || c = '/' :=
        List.dropWhile_cons_of_pos (by simpa using hc)
      rw [hdrop, List.length_cons]
      exact Nat.lt_succ_of_le (List.dropWhile_sublist _).length_le

omit [Re] in
/-- A declared path with a plain start is sensitive. -/
theorem sensitive_of_declared {path : String} (h : PlainStart path)
    (hd : Declared registry path) : registry.pathIsSensitive path = true := by
  obtain ⟨pattern, hpattern, name, hname, hmatch⟩ := hd
  obtain rfl := spelling_of_plain h hname
  unfold SecuritySensitiveRegistry.pathIsSensitive
  rw [lstripped_of_plain h]
  refine List.any_eq_true.mpr ⟨pattern, hpattern, ?_⟩
  unfold SecuritySensitiveRegistry.candidates
  rcases hmatch with hmatch | ⟨rest, hrest, hmatch⟩
  · split
    · exact List.any_eq_true.mpr ⟨_, List.mem_cons_self, hmatch⟩
    · exact List.any_eq_true.mpr ⟨_, List.mem_cons_self, hmatch⟩
  · have hlead : "**/".toList.isPrefixOf pattern.toList = true :=
      List.isPrefixOf_iff_prefix.mpr ⟨rest, hrest.symm⟩
    have hdrop : pattern.toList.drop 3 = rest := by
      rw [hrest]
      rfl
    rw [if_pos hlead]
    refine List.any_eq_true.mpr ⟨pattern.toList.drop 3, by simp, ?_⟩
    rw [hdrop]
    exact hmatch

omit [Re] in
/-- What is sensitive by its path is classified so, with everything else that is found. -/
theorem mem_fileClasses {change : FileChange} (names : Finset String)
    (h : registry.pathIsSensitive change.path = true) :
    ImpactClass.securitySensitive ∈ (fileClasses registry change names).1 := by
  have hstart : ImpactClass.securitySensitive ∈
      (addWhen (registry.pathIsSensitive change.path) .securitySensitive
        (change.path ++ ": in a security-sensitive path") (∅, [])).1 := by
    unfold addWhen
    rw [if_pos h]
    exact Finset.mem_insert_self _ _
  have hloop : ∀ (l : List String) (c : Collected), ImpactClass.securitySensitive ∈ c.1 →
      ImpactClass.securitySensitive ∈ (l.foldl (fun c name =>
        addWhen True (patternToClass name) (change.path ++ ": matched '" ++ name ++ "'") c) c).1 := by
    intro l
    induction l with
    | nil => exact fun c hc => hc
    | cons name l ih => exact fun c hc => ih _ (mem_addWhen hc)
  unfold fileClasses
  exact mem_addWhen (mem_addWhen (mem_addWhen (hloop _ _ hstart)))

omit [Re] in
theorem mem_dropCosmetic {classes : Finset ImpactClass} {impact : ImpactClass}
    (h : impact ∈ classes) (hne : impact ≠ .cosmetic) : impact ∈ dropCosmetic classes := by
  unfold dropCosmetic
  split
  · exact Finset.mem_erase.mpr ⟨hne, h⟩
  · exact h

theorem classified_of_sensitive {changes : List FileChange} {surfaceChanged newDependencies : Bool}
    {result : ImpactResult} {change : FileChange}
    (h : classify changes registry surfaceChanged newDependencies = .ok result)
    (hm : change ∈ changes) (hknown : change.suffix ∈ registry.knownExtensions.map String.toList)
    (hcosmetic : change.isCosmetic = false)
    (hsensitive : registry.pathIsSensitive change.path = true) :
    ImpactClass.securitySensitive ∈ result.classes := by
  obtain ⟨hall, hclasses, -⟩ := classify_sound (List.ne_nil_of_mem hm) h
  obtain ⟨part, hpart⟩ := hall change hm
  have hmem : ImpactClass.securitySensitive ∈ part.1 := by
    unfold contribution classifyChange at hpart
    rw [if_neg (not_not.mpr hknown), if_neg (by simp [hcosmetic])] at hpart
    obtain ⟨names, -, hfile⟩ := Except.bind_ok.mp hpart
    obtain rfl := Except.pure_ok.mp hfile
    exact Finset.mem_union_right _ (mem_fileClasses names hsensitive)
  rw [hclasses]
  refine mem_dropCosmetic (Finset.mem_union_right _ ?_) fun hc => nomatch hc
  refine Finset.mem_biUnion.mpr ⟨change, List.mem_toFinset.mpr hm, ?_⟩
  rw [contributed_of_ok hpart]
  exact hmem

end Laws

/-- The classification is a homomorphism. -/
theorem classify_homomorphic [Re] (registry : SecuritySensitiveRegistry)
    (surfaceChanged newDependencies : Bool) :
    Homomorphic registry surfaceChanged newDependencies := by
  refine ⟨?_, ?_, ?_, ?_⟩
  · intro a b ha hb first second hfirst hsecond
    obtain ⟨halla, hclassesa, hinva⟩ := classify_sound ha hfirst
    obtain ⟨hallb, hclassesb, hinvb⟩ := classify_sound hb hsecond
    have hall : ∀ change ∈ a ++ b, ∃ part, contribution registry change = .ok part :=
      fun change hm => (List.mem_append.mp hm).elim (halla change) (hallb change)
    obtain ⟨result, hresult⟩ := classify_returns surfaceChanged newDependencies hall
    have hab : a ++ b ≠ [] := fun hnil => ha (List.append_eq_nil_iff.mp hnil).1
    obtain ⟨-, hclasses, hinv⟩ := classify_sound hab hresult
    refine ⟨result, hresult, ?_, ?_⟩
    · rw [hinv, hinva, hinvb, gathered_append, Finset.union_biUnion]
    · rw [hclasses, hclassesa, hclassesb, gathered_append, dropCosmetic_union]
  · intro a b result h
    obtain ⟨collected, hloop, -⟩ := Except.bind_ok.mp h
    obtain ⟨hall, -⟩ := loop_ok hloop
    obtain ⟨first, hfirst⟩ := classify_returns surfaceChanged newDependencies
      fun change hm => hall change (List.mem_append_left b hm)
    obtain ⟨second, hsecond⟩ := classify_returns surfaceChanged newDependencies
      fun change hm => hall change (List.mem_append_right a hm)
    exact ⟨first, second, hfirst, hsecond⟩
  · intro a b hsame first hfirst
    by_cases ha : a = []
    · subst ha
      have hb : b = [] := List.eq_nil_iff_forall_not_mem.mpr fun change hm =>
        List.not_mem_nil ((hsame change).mpr hm)
      subst hb
      exact ⟨first, hfirst, rfl, rfl⟩
    · obtain ⟨hall, hclasses, hinv⟩ := classify_sound ha hfirst
      have hb : b ≠ [] := by
        obtain ⟨change, hm⟩ := List.exists_mem_of_ne_nil _ ha
        exact List.ne_nil_of_mem ((hsame change).mp hm)
      obtain ⟨second, hsecond⟩ := classify_returns surfaceChanged newDependencies
        fun change hm => hall change ((hsame change).mpr hm)
      obtain ⟨-, hclasses', hinv'⟩ := classify_sound hb hsecond
      have hset : a.toFinset = b.toFinset := by
        ext change
        rw [List.mem_toFinset, List.mem_toFinset]
        exact hsame change
      have hgathered : gathered registry surfaceChanged newDependencies b =
          gathered registry surfaceChanged newDependencies a := by
        unfold gathered
        rw [hset]
      exact ⟨second, hsecond, by rw [hclasses', hclasses, hgathered],
        by rw [hinv', hinv, hgathered]⟩
  · intro a b ha hsub first second hfirst hsecond
    have hb : b ≠ [] := by
      obtain ⟨change, hm⟩ := List.exists_mem_of_ne_nil _ ha
      exact List.ne_nil_of_mem (hsub hm)
    obtain ⟨-, -, hinv⟩ := classify_sound ha hfirst
    obtain ⟨-, -, hinv'⟩ := classify_sound hb hsecond
    have hset : a.toFinset ⊆ b.toFinset := fun change hm =>
      List.mem_toFinset.mpr (hsub (List.mem_toFinset.mp hm))
    rw [hinv, hinv']
    unfold gathered
    refine Finset.biUnion_subset_biUnion_of_subset_left _ ?_
    exact Finset.union_subset_union_right (Finset.biUnion_subset_biUnion_of_subset_left _ hset)

/-- The declared patterns hold of a path, whatever they are, exactly when it starts with neither
a dot nor a slash: these are taken off the path, and not off the patterns. -/
theorem never_open_iff [Re] (path : String) :
    (∀ registry, NeverOpen registry path) ↔ PlainStart path := by
  constructor
  · intro h
    by_contra hplain
    -- as many question marks as the path has characters match it, and nothing shorter
    let marks := List.replicate path.toList.length '?'
    have hmarks : (String.ofList marks).toList = marks := String.toList_ofList
    have hdeclared : Declared { paths := [String.ofList marks] } path := by
      refine ⟨_, List.mem_singleton_self _, path.toList, List.mem_cons_self, .inl ?_⟩
      rw [hmarks]
      exact fnmatch_marks.mpr rfl
    have hsensitive := (h _).sensitive hdeclared
    obtain ⟨pattern, hpattern, hmatch⟩ := List.any_eq_true.mp hsensitive
    obtain rfl := List.mem_singleton.mp hpattern
    have hlength := lstripped_shorter hplain
    have hlead : ¬ "**/".toList.isPrefixOf (String.ofList marks).toList = true := by
      rw [hmarks]
      intro hlead
      have hstar : '*' ∈ marks := (List.isPrefixOf_iff_prefix.mp hlead).subset List.mem_cons_self
      cases (List.mem_replicate.mp hstar).2
    unfold SecuritySensitiveRegistry.candidates at hmatch
    rw [if_neg hlead, hmarks, List.any_cons, List.any_nil, Bool.or_false] at hmatch
    have hsame := fnmatch_marks.mp hmatch
    omega
  · intro hplain registry
    refine ⟨sensitive_of_declared hplain, ?_⟩
    intro hd changes surfaceChanged newDependencies result change h hm hpath hknown hcosmetic
    subst hpath
    exact classified_of_sensitive h hm hknown hcosmetic (sensitive_of_declared hplain hd)

theorem hidden_folder_open :
    Declared { paths := [".github/**"] } ".github/workflows/ci.yml" ∧
      SecuritySensitiveRegistry.pathIsSensitive { paths := [".github/**"] }
        ".github/workflows/ci.yml" = false := by
  refine ⟨⟨_, List.mem_cons_self, _, List.mem_cons_self, .inl ?_⟩, ?_⟩
  · decide +kernel
  · decide +kernel

end Impact

end NokincFactory
