/-
  File:      NokincFactory/Reports/Acceptance.lean
  Subject:   What a report was that counts as passed.

  The tree is whatever the XML parser gave; that the cases were ever run is not covered.

  * `totals`, `Supported`, `Within`: sums over a subtree, the grammar, the limits;
  * `Gathered`, `traverse_ok`: what the stack gathers, parents before children;
  * `Counted`, `foldlM_counted`: from the end, every element is counted after its children;
  * `Within.gathered`: a document within the limits is gathered whole;
  * `report_accepted`: the five totals, and what a passed report says.
-/
import Mathlib.Data.List.Dedup
import NokincFactory.Adapters.MaestroReports

namespace NokincFactory

namespace Maestro

open Element (Located)

/-! ## 1. Sums and grammar -/

/-- What an element counts for by itself. -/
def own (e : Element) (counter : Counter) : ℕ :=
  if e.tag = "testcase" then caseCounts e counter else 0

/-- The recursive sum over a subtree. -/
def totals (e : Element) : Totals := fun counter => (e.subtree.map fun d => own d counter).sum

/-- Every nesting at and below an element is one that `_CHILDREN` lists. -/
def Supported (e : Element) : Prop := ∀ d ∈ e.subtree, checkChildren d = .ok ()

/-- A document that the limits admit. -/
structure Within where
  root : Element
  suite : root.tag ∈ suiteTags
  supported : Supported root
  size : root.subtree.length ≤ maxReportElements
  depth : root.depth ≤ maxReportDepth

theorem checkChildren_ok {e : Element} : checkChildren e = .ok () ↔
    ∀ child ∈ e.children, ∃ tags, childTags.lookup e.tag = some tags ∧ child.tag ∈ tags := by
  rw [checkChildren, List.forM_ok]
  refine forall₂_congr fun child _ => ?_
  cases childTags.lookup e.tag with
  | none => simp
  | some tags => simp [guardThat_ok]

theorem Supported.child {e child : Element} (h : Supported e) (hchild : child ∈ e.children) :
    Supported child := fun d hd => h d (Element.child_subtree hchild hd)

theorem totals_eq (e : Element) (counter : Counter) :
    totals e counter = own e counter + (e.children.map fun child => totals child counter).sum := by
  rw [totals, Element.subtree_eq, List.map_cons, List.sum_cons, List.map_flatMap, List.flatMap_def,
    List.sum_flatten, List.map_map]
  rfl

/-- The tags whose elements have counts. -/
def counted (e : Element) : Prop := e.tag = "testcase" ∨ e.tag ∈ suiteTags

instance (e : Element) : Decidable (counted e) := inferInstanceAs (Decidable (_ ∨ _))

/-- Only suites have children with counts. -/
theorem counted_child {e child : Element} (h : checkChildren e = .ok ()) (hchild : child ∈ e.children)
    (hcounted : counted child) : e.tag ∈ suiteTags := by
  obtain ⟨tags, htags, hmem⟩ := checkChildren_ok.mp h child hchild
  have hall : ∀ pair ∈ childTags, pair.1 ∉ suiteTags →
      ∀ tag ∈ pair.2, tag ≠ "testcase" ∧ tag ∉ suiteTags := by decide
  by_contra hsuite
  have hpair : (e.tag, tags) ∈ childTags := by
    obtain ⟨before, after, heq, -⟩ := List.lookup_eq_some_iff.mp htags
    rw [heq]
    exact List.mem_append_right before List.mem_cons_self
  obtain ⟨hcase, hnoSuite⟩ := hall _ hpair hsuite child.tag hmem
  rcases hcounted with h | h
  · exact hcase h
  · exact hnoSuite h

/-- Below what has no counts, nothing counts. -/
theorem totals_uncounted {e : Element} (h : Supported e) (hcounted : ¬ counted e)
    (counter : Counter) : totals e counter = 0 := by
  have hbelow : ∀ n (e : Element), e.depth ≤ n → Supported e → ¬ counted e → totals e counter = 0 := by
    intro n
    induction n with
    | zero =>
      intro e hdepth hsupported hcounted
      have hnone : e.children = [] := by
        refine List.eq_nil_iff_forall_not_mem.mpr fun child hchild => ?_
        have hless := Element.depth_child hchild
        omega
      rw [totals_eq, hnone, own, if_neg fun hcase => hcounted (.inl hcase)]
      rfl
    | succ n ih =>
      intro e hdepth hsupported hcounted
      have hzero : ∀ child ∈ e.children, totals child counter = 0 := by
        intro child hchild
        have hless := Element.depth_child hchild
        refine ih child (by omega) (hsupported.child hchild) fun hchildCounted => ?_
        exact hcounted (.inr (counted_child (hsupported e e.self_mem_subtree) hchild hchildCounted))
      rw [totals_eq, own, if_neg fun hcase => hcounted (.inl hcase), List.map_congr_left hzero]
      simp
  exact hbelow e.depth e (Nat.le_refl _) h hcounted

/-- A test case counts for itself alone. -/
theorem totals_case {e : Element} (h : Supported e) (hcase : e.tag = "testcase") :
    totals e = caseCounts e := by
  funext counter
  have hzero : ∀ child ∈ e.children, totals child counter = 0 := by
    intro child hchild
    refine totals_uncounted (h.child hchild) (fun hcounted => ?_) counter
    have hsuite := counted_child (h e e.self_mem_subtree) hchild hcounted
    rw [hcase] at hsuite
    exact absurd hsuite (by decide)
  rw [totals_eq, own, if_pos hcase, List.map_congr_left hzero]
  simp

/-- A suite counts for its children that have counts. -/
theorem totals_suite {e : Element} (h : Supported e) (hsuite : e.tag ∈ suiteTags)
    (counter : Counter) : totals e counter =
      ((e.children.filter fun child => counted child).map fun child => totals child counter).sum := by
  have hown : own e counter = 0 := by
    rw [own, if_neg]
    intro hcase
    rw [hcase] at hsuite
    exact absurd hsuite (by decide)
  have hfilter : ∀ es : List Element, (∀ d ∈ es, Supported d) →
      (es.map fun child => totals child counter).sum =
        ((es.filter fun child => counted child).map fun child => totals child counter).sum := by
    intro es
    induction es with
    | nil => exact fun _ => rfl
    | cons d es ih =>
      intro hes
      have hrest := ih fun c hc => hes c (List.mem_cons_of_mem d hc)
      by_cases hcounted : counted d
      · rw [List.filter_cons_of_pos (by simpa using hcounted)]
        simp [hrest]
      · rw [List.filter_cons_of_neg (by simpa using hcounted)]
        have hzero := totals_uncounted (hes d List.mem_cons_self) hcounted counter
        simp [hrest, hzero]
  rw [totals_eq, hown, Nat.zero_add]
  exact hfilter e.children fun d hd => h.child hd

/-! ## 2. The stack -/

/-- What was gathered: each element stands at its place, is supported, and comes before its
children. -/
def Gathered (root : Element) : List Located → Prop
  | [] => True
  | l :: elements =>
    (l.Under root ∧ checkChildren l.element = .ok () ∧ ∀ child ∈ l.children, child ∈ elements) ∧
      Gathered root elements

/-- The elements of a stack, with all that are below them. -/
def below (pending : List (Located × ℕ)) : List Element :=
  pending.flatMap fun entry => entry.1.element.subtree

/-- The elements below the children of an element, in the order of the stack. -/
theorem below_step (l : Located) (depth : ℕ) (pending : List (Located × ℕ)) :
    (below ((l.children.map fun child => (child, depth + 1)).reverse ++ pending)).Perm
      (l.element.children.flatMap Element.subtree ++ below pending) := by
  rw [below, below, List.flatMap_append]
  refine List.Perm.append_right _ ?_
  have hreverse := (List.reverse_perm (l.children.map fun child => (child, depth + 1))).flatMap_right
    fun entry => entry.1.element.subtree
  refine hreverse.trans (List.Perm.of_eq ?_)
  rw [List.flatMap_map, ← Located.children_map, List.flatMap_map]

/-- The loop gathers what is on the stack and all below it. -/
theorem traverse_ok {root : Element} {room : ℕ} {pending : List (Located × ℕ)}
    {elements : List Located} (hunder : ∀ entry ∈ pending, entry.1.Under root)
    (h : traverse room pending = .ok elements) :
    Gathered root elements ∧ (∀ entry ∈ pending, entry.1 ∈ elements) ∧
      (elements.map Located.element).Perm (below pending) := by
  induction room generalizing pending elements with
  | zero =>
    cases pending with
    | nil =>
      cases h
      exact ⟨trivial, fun entry hentry => (nomatch hentry), .nil⟩
    | cons entry pending => cases h
  | succ room ih =>
    cases pending with
    | nil =>
      cases h
      exact ⟨trivial, fun entry hentry => (nomatch hentry), .nil⟩
    | cons entry pending =>
      obtain ⟨l, depth⟩ := entry
      rw [traverse] at h
      obtain ⟨-, h⟩ := Except.seq_ok.mp h
      obtain ⟨hchildren, h⟩ := Except.seq_ok.mp h
      obtain ⟨rest, hrest, h⟩ := Except.bind_ok.mp h
      obtain rfl := Except.pure_ok.mp h
      have hl : l.Under root := hunder _ List.mem_cons_self
      have hunder' : ∀ entry ∈ (l.children.map fun child => (child, depth + 1)).reverse ++ pending,
          entry.1.Under root := by
        intro entry hentry
        rcases List.mem_append.mp hentry with hentry | hentry
        · obtain ⟨child, hchild, rfl⟩ := List.mem_map.mp (List.mem_reverse.mp hentry)
          exact Located.children_under hl hchild
        · exact hunder entry (List.mem_cons_of_mem _ hentry)
      obtain ⟨hgathered, hmem, hperm⟩ := ih hunder' hrest
      refine ⟨⟨⟨hl, hchildren, fun child hchild => ?_⟩, hgathered⟩, fun entry hentry => ?_, ?_⟩
      · have hpushed : (child, depth + 1) ∈
            (l.children.map fun child => (child, depth + 1)).reverse ++ pending :=
          List.mem_append_left _ (List.mem_reverse.mpr (List.mem_map_of_mem hchild))
        exact hmem _ hpushed
      · rcases List.mem_cons.mp hentry with rfl | hentry
        · exact List.mem_cons_self
        · exact List.mem_cons_of_mem _ (hmem entry (List.mem_append_right _ hentry))
      · show (l.element :: rest.map Located.element).Perm
          (l.element.subtree ++ below pending)
        rw [Element.subtree_eq, List.cons_append]
        exact (hperm.trans (below_step l depth pending)).cons _

/-- A stack within the limits is gathered. -/
theorem traverse_within {room : ℕ} {pending : List (Located × ℕ)}
    (hsize : (below pending).length ≤ room)
    (h : ∀ entry ∈ pending, Supported entry.1.element ∧
      entry.2 + entry.1.element.depth ≤ maxReportDepth) :
    ∃ elements, traverse room pending = .ok elements := by
  induction room generalizing pending with
  | zero =>
    cases pending with
    | nil => exact ⟨[], rfl⟩
    | cons entry pending =>
      have hself := entry.1.element.self_mem_subtree
      have hmem : entry.1.element ∈ below (entry :: pending) :=
        List.mem_flatMap.mpr ⟨entry, List.mem_cons_self, hself⟩
      rw [List.length_eq_zero_iff.mp (Nat.le_zero.mp hsize)] at hmem
      cases hmem
  | succ room ih =>
    cases pending with
    | nil => exact ⟨[], rfl⟩
    | cons entry pending =>
      obtain ⟨l, depth⟩ := entry
      obtain ⟨hsupported, hdepth⟩ := h _ List.mem_cons_self
      have hlength := (below_step l depth pending).length_eq
      have hless : (below ((l.children.map fun child => (child, depth + 1)).reverse ++ pending)).length
          ≤ room := by
        have hall : (below ((l, depth) :: pending)).length =
            (l.element.subtree ++ below pending).length := rfl
        rw [Element.subtree_eq, List.cons_append, List.length_cons] at hall
        omega
      have hpushed : ∀ entry ∈ (l.children.map fun child => (child, depth + 1)).reverse ++ pending,
          Supported entry.1.element ∧ entry.2 + entry.1.element.depth ≤ maxReportDepth := by
        intro entry hentry
        rcases List.mem_append.mp hentry with hentry | hentry
        · obtain ⟨child, hchild, rfl⟩ := List.mem_map.mp (List.mem_reverse.mp hentry)
          have hmem : child.element ∈ l.element.children := by
            rw [← Located.children_map]
            exact List.mem_map_of_mem hchild
          have hchildDepth := Element.depth_child hmem
          refine ⟨hsupported.child hmem, ?_⟩
          simp only at hdepth ⊢
          omega
        · exact h entry (List.mem_cons_of_mem _ hentry)
      obtain ⟨rest, hrest⟩ := ih hless hpushed
      refine ⟨l :: rest, ?_⟩
      rw [traverse]
      refine Except.seq_ok.mpr ⟨guardThat_pass ?_, ?_⟩
      · simp only at hdepth
        omega
      · refine Except.seq_ok.mpr ⟨hsupported _ l.element.self_mem_subtree, ?_⟩
        rw [hrest]
        rfl

/-- What `_validated_structure` gives. -/
theorem validatedStructure_ok {root : Element} {elements : List Located}
    (h : validatedStructure root = .ok elements) :
    Gathered root elements ∧ (elements.map Located.element).Perm root.subtree := by
  have hunder : ∀ entry ∈ [((⟨[], root⟩ : Located), 0)], entry.1.Under root := by
    intro entry hentry
    rw [List.mem_singleton.mp hentry]
    rfl
  obtain ⟨hgathered, -, hperm⟩ := traverse_ok hunder h
  refine ⟨hgathered, hperm.trans (List.Perm.of_eq ?_)⟩
  exact List.append_nil _

/-! ## 3. From the end -/

theorem Gathered.mem {root : Element} {elements : List Located} (h : Gathered root elements)
    {l : Located} (hl : l ∈ elements) : l.Under root ∧ checkChildren l.element = .ok () := by
  induction elements with
  | nil => cases hl
  | cons first elements ih =>
    obtain ⟨⟨hunder, hchildren, -⟩, hrest⟩ := h
    rcases List.mem_cons.mp hl with rfl | hl
    · exact ⟨hunder, hchildren⟩
    · exact ih hrest hl

theorem Gathered.append_right {root : Element} {before after : List Located}
    (h : Gathered root (before ++ after)) : Gathered root after := by
  induction before with
  | nil => exact h
  | cons l before ih => exact ih h.2

/-- The counts say of each element that was seen what its recursive sums are. -/
structure Counted (elements : List Located) (counts : Counts) : Prop where
  seen : ∀ l ∈ elements, counted l.element → AList.lookup l.path counts = some (totals l.element)
  only : ∀ path, (AList.lookup path counts).isSome →
    ∃ l ∈ elements, l.path = path ∧ counted l.element

theorem supported_of_gathered {root : Element} {elements : List Located}
    (h : (elements.map Located.element).Perm root.subtree) (hgathered : Gathered root elements) :
    Supported root := by
  intro d hd
  obtain ⟨l, hl, rfl⟩ := List.mem_map.mp (h.mem_iff.mpr hd)
  exact (hgathered.mem hl).2

/-- The sums over the counts of the children are the recursive sums. -/
theorem suiteCounts_eq {root : Element} {l : Located} {elements : List Located} {counts : Counts}
    (hroot : Supported root) (hgathered : Gathered root (l :: elements))
    (hcounts : Counted elements counts) (hsuite : l.element.tag ∈ suiteTags) :
    suiteCounts counts l = totals l.element := by
  obtain ⟨⟨hunder, -, hchildren⟩, hrest⟩ := hgathered
  have hsupported : Supported l.element := by
    intro d hd
    obtain ⟨path, hpath⟩ := Element.mem_subtree_iff.mp hd
    have hwhole : d ∈ root.subtree := by
      obtain hmem := Element.mem_subtree_iff.mpr ⟨l.path, hunder⟩
      exact Element.subtree_trans hmem hd
    exact hroot d hwhole
  have hlookup : ∀ child ∈ l.children, AList.lookup child.path counts =
      if counted child.element then some (totals child.element) else none := by
    intro child hchild
    by_cases hcounted : counted child.element
    · rw [if_pos hcounted]
      exact hcounts.seen child (hchildren child hchild) hcounted
    · rw [if_neg hcounted]
      by_contra hsome
      obtain ⟨other, hother, hpath, hotherCounted⟩ :=
        hcounts.only child.path (Option.isSome_iff_ne_none.mpr hsome)
      have hchildUnder := Located.children_under hunder hchild
      have hotherUnder := (hrest.mem hother).1
      rw [Located.Under, hpath, hchildUnder] at hotherUnder
      exact hcounted (Option.some.inj hotherUnder ▸ hotherCounted)
  have hvalues : (l.children.filterMap fun child => AList.lookup child.path counts) =
      (l.element.children.filter fun child => counted child).map totals := by
    rw [← Located.children_map, List.filter_map, List.map_map, ← List.filterMap_eq_filter,
      List.map_filterMap]
    refine List.filterMap_congr fun child hchild => ?_
    rw [hlookup child hchild]
    by_cases hcounted : counted child.element
    · simp [hcounted, Option.guard]
    · simp [hcounted, Option.guard]
  funext counter
  rw [suiteCounts, hvalues, List.map_map, totals_suite hsupported hsuite]
  rfl

/-- One round: the element is counted as its subtree. -/
theorem countElement_counted {root : Element} {l : Located} {elements : List Located}
    {counts counts' : Counts} (hroot : Supported root) (hgathered : Gathered root (l :: elements))
    (hcounts : Counted elements counts) (h : countElement counts l = .ok counts') :
    Counted (l :: elements) counts' ∧
      (l.element.tag ∈ suiteTags → checkStated l.element (totals l.element) = .ok ()) := by
  obtain ⟨⟨hunder, -, -⟩, hrest⟩ := id hgathered
  have hinsert : counted l.element → Counted (l :: elements)
      (AList.insert l.path (totals l.element) counts) := by
    intro hcounted
    refine ⟨fun m hm hmCounted => ?_, fun path hpath => ?_⟩
    · by_cases hsame : m.path = l.path
      · have hmUnder : m.Under root := by
          rcases List.mem_cons.mp hm with rfl | hm
          · exact hunder
          · exact (hrest.mem hm).1
        rw [Located.Under, hsame, hunder] at hmUnder
        rw [hsame, AList.lookup_insert, Option.some.inj hmUnder]
      · rw [AList.lookup_insert_ne hsame]
        rcases List.mem_cons.mp hm with rfl | hm
        · exact absurd rfl hsame
        · exact hcounts.seen m hm hmCounted
    · by_cases hsame : path = l.path
      · exact ⟨l, List.mem_cons_self, hsame.symm, hcounted⟩
      · rw [AList.lookup_insert_ne hsame] at hpath
        obtain ⟨m, hm, hmPath, hmCounted⟩ := hcounts.only path hpath
        exact ⟨m, List.mem_cons_of_mem l hm, hmPath, hmCounted⟩
  have hsupported : Supported l.element := fun d hd =>
    hroot d (Element.subtree_trans (Element.mem_subtree_iff.mpr ⟨l.path, hunder⟩) hd)
  rw [countElement] at h
  by_cases hcase : l.element.tag = "testcase"
  · rw [if_pos hcase] at h
    cases h
    refine ⟨?_, fun hsuite => ?_⟩
    · rw [← totals_case hsupported hcase]
      exact hinsert (.inl hcase)
    · rw [hcase] at hsuite
      exact absurd hsuite (by decide)
  · rw [if_neg hcase] at h
    by_cases hsuite : l.element.tag ∈ suiteTags
    · rw [if_pos hsuite, suiteCounts_eq hroot hgathered hcounts hsuite] at h
      obtain ⟨hstated, h⟩ := Except.seq_ok.mp h
      obtain rfl := Except.pure_ok.mp h
      exact ⟨hinsert (.inr hsuite), fun _ => hstated⟩
    · rw [if_neg hsuite] at h
      cases h
      refine ⟨⟨fun m hm hmCounted => ?_, fun path hpath => ?_⟩, fun hs => absurd hs hsuite⟩
      · rcases List.mem_cons.mp hm with rfl | hm
        · exact absurd hmCounted (not_or.mpr ⟨hcase, hsuite⟩)
        · exact hcounts.seen m hm hmCounted
      · obtain ⟨m, hm, hmPath, hmCounted⟩ := hcounts.only path hpath
        exact ⟨m, List.mem_cons_of_mem l hm, hmPath, hmCounted⟩

/-- The rounds over the last elements. -/
theorem foldlM_counted {root : Element} {elements : List Located} {counts : Counts}
    (hroot : Supported root) (hgathered : Gathered root elements)
    (h : elements.reverse.foldlM countElement ∅ = .ok counts) :
    Counted elements counts ∧ ∀ l ∈ elements, l.element.tag ∈ suiteTags →
      checkStated l.element (totals l.element) = .ok () := by
  induction elements generalizing counts with
  | nil =>
    cases h
    refine ⟨⟨fun l hl => (nomatch hl), fun path hpath => ?_⟩, fun l hl => (nomatch hl)⟩
    rw [AList.lookup_empty] at hpath
    cases hpath
  | cons l elements ih =>
    rw [List.reverse_cons, List.foldlM_append] at h
    obtain ⟨before, hbefore, hone⟩ := Except.bind_ok.mp h
    have hlast : countElement before l = .ok counts := by
      rw [List.foldlM_cons] at hone
      obtain ⟨after, hstep, hpure⟩ := Except.bind_ok.mp hone
      rw [hstep]
      exact hpure
    obtain ⟨hcounts, hstated⟩ := ih hgathered.2 hbefore
    obtain ⟨hcounts', hown⟩ := countElement_counted hroot hgathered hcounts hlast
    refine ⟨hcounts', fun m hm hsuite => ?_⟩
    rcases List.mem_cons.mp hm with rfl | hm
    · exact hown hsuite
    · exact hstated m hm hsuite

/-! ## 4. Documents and reports -/

/-- A stated count: the decimal form of a number, after zeros, in seven characters at most. -/
def StatesCount (value : String) (n : ℕ) : Prop :=
  value.toList.length ≤ 7 ∧ ∃ zeros, value.toList = List.replicate zeros '0' ++ Nat.toDigits 10 n

/-- What a report says whose summary counts as passed. -/
structure Passing (root : Element) (expected : List String) : Prop where
  nesting : ∀ d ∈ root.subtree, ∀ child ∈ d.children,
    ∃ tags, childTags.lookup d.tag = some tags ∧ child.tag ∈ tags
  inventory : ((root.subtree.filter fun e => e.tag = "testcase").map caseName).Perm expected
  different : expected.Nodup
  outcomes : ∀ e ∈ root.subtree, e.tag = "testcase" →
    ∀ child ∈ e.children, child.tag ∉ ["failure", "error", "skipped"]
  statuses : ∀ e ∈ root.subtree, e.tag = "testcase" → (e.get "status").getD "SUCCESS" = "SUCCESS"
  counts : ∀ e ∈ root.subtree, e.tag ∈ suiteTags → ∀ counter value,
    e.get (Counter.key counter) = some value → StatesCount value (totals e counter)

theorem Counter.mem_all (counter : Counter) : counter ∈ Counter.all := by
  cases counter <;> decide

theorem statesCount_of_stated {value : String} {n : ℕ} (h : countStated value n) :
    StatesCount value n := by
  obtain ⟨hlength, hdigits, hne, hvalue⟩ := h
  obtain ⟨zeros, hzeros⟩ := digits_after_zeros (List.all_eq_true.mp hdigits) hne
  rw [hvalue] at hzeros
  exact ⟨hlength, zeros, hzeros⟩

theorem checkStated_ok {e : Element} {sums : Totals} (h : checkStated e sums = .ok ())
    {counter : Counter} {value : String} (hvalue : e.get counter.key = some value) :
    StatesCount value (sums counter) := by
  have hcheck := List.forM_ok.mp h counter counter.mem_all
  simp only [hvalue] at hcheck
  exact statesCount_of_stated (guardThat_ok.mp hcheck)

theorem nodup_of_dedup {names : List String} (h : names.dedup.length = names.length) :
    names.Nodup := by
  have hself : names.dedup = names := names.dedup_sublist.eq_of_length h
  exact hself ▸ names.nodup_dedup

theorem inventory_perm {names expected : List String} (h : inventoryMatches names expected) :
    names.Perm expected ∧ expected.Nodup := by
  obtain ⟨-, hexpected, -, ⟨hsub, hsup⟩, hnames⟩ := h
  have hnodup := nodup_of_dedup hexpected
  refine ⟨(List.perm_ext_iff_of_nodup (nodup_of_dedup hnames) hnodup).mpr fun name => ?_, hnodup⟩
  exact ⟨hsub name, hsup name⟩

/-- A case that is no failure and was not skipped. -/
theorem outcome_of_passed {e : Element} (hfailed : failedCase e = false)
    (hskipped : (e.find "skipped").isSome = false) :
    ∀ child ∈ e.children, child.tag ∉ ["failure", "error", "skipped"] := by
  intro child hchild hmem
  obtain ⟨hfailure, herror⟩ := Bool.or_eq_false_iff.mp hfailed
  have hnone : ∀ tag, (e.find tag).isSome = false → child.tag ≠ tag := by
    rintro tag hnone rfl
    exact Bool.eq_false_iff.mp hnone (Element.find_isSome.mpr ⟨child, hchild, rfl⟩)
  rcases List.mem_cons.mp hmem with h | hmem
  · exact hnone _ hfailure h
  · rcases List.mem_pair.mp hmem with h | h
    · exact hnone _ herror h
    · exact hnone _ hskipped h

/-- A case that did not fail states no failure. -/
theorem status_of_passed {e : Element} (h : checkStatus e = .ok ()) (hfailed : failedCase e = false) :
    (e.get "status").getD "SUCCESS" = "SUCCESS" := by
  obtain ⟨hknown, hconsistent⟩ := Except.seq_ok.mp h
  have hknown := guardThat_ok.mp hknown
  have hconsistent := guardThat_ok.mp hconsistent
  cases hstatus : e.get "status" with
  | none => rfl
  | some status =>
    rw [hstatus, hfailed] at hconsistent
    rw [hstatus] at hknown
    rcases List.mem_cons.mp hknown with hsuccess | hstate
    · exact hsuccess
    · exact absurd ⟨by simpa using hstate, by decide⟩ hconsistent

/-- A document within the limits is gathered whole, and every suite of it gets the sums over its
subtree. -/
theorem Within.gathered (report : Within) :
    ∃ elements, validatedStructure report.root = .ok elements ∧
      (elements.map Located.element).Perm report.root.subtree ∧
      ∀ before l after counts, elements.reverse = before ++ l :: after →
        before.foldlM countElement ∅ = .ok counts → l.element.tag ∈ suiteTags →
        suiteCounts counts l = totals l.element := by
  have hpending : ∀ entry ∈ [((⟨[], report.root⟩ : Located), 0)], Supported entry.1.element ∧
      entry.2 + entry.1.element.depth ≤ maxReportDepth := by
    intro entry hentry
    rw [List.mem_singleton.mp hentry]
    exact ⟨report.supported, (Nat.zero_add _).symm ▸ report.depth⟩
  have hsize : (below [((⟨[], report.root⟩ : Located), 0)]).length ≤ maxReportElements := by
    have hall : below [((⟨[], report.root⟩ : Located), 0)] = report.root.subtree :=
      List.append_nil _
    rw [hall]
    exact report.size
  obtain ⟨elements, helements⟩ := traverse_within hsize hpending
  obtain ⟨hgathered, hperm⟩ := validatedStructure_ok helements
  refine ⟨elements, helements, hperm, fun before l after counts hsplit hcounts hsuite => ?_⟩
  have horder : elements = after.reverse ++ l :: before.reverse := by
    rw [← List.reverse_reverse elements, hsplit]
    simp
  rw [horder] at hgathered
  have hlast := hgathered.append_right
  rw [← List.reverse_reverse before] at hcounts
  obtain ⟨hcounted, -⟩ := foldlM_counted report.supported hlast.2 hcounts
  exact suiteCounts_eq report.supported hlast hcounted hsuite

section

variable [ElementTree]

/-- What a report was that is accepted and counts as passed. -/
theorem parseReport_passed {content : List Byte} {expected : List String} {summary : ReportSummary}
    (h : parseReport content expected = .ok summary) (hpassed : summary.passed) :
    ∃ root, parseRoot content = .ok root ∧ Passing root expected := by
  rw [parseReport] at h
  obtain ⟨root, hroot, h⟩ := Except.bind_ok.mp h
  obtain ⟨-, h⟩ := Except.seq_ok.mp h
  obtain ⟨elements, helements, h⟩ := Except.bind_ok.mp h
  obtain ⟨hinventory, h⟩ := Except.seq_ok.mp h
  obtain ⟨hstatus, h⟩ := Except.seq_ok.mp h
  obtain ⟨hcounts, h⟩ := Except.seq_ok.mp h
  obtain rfl := Except.pure_ok.mp h
  obtain ⟨hgathered, hperm⟩ := validatedStructure_ok helements
  have hsupported := supported_of_gathered hperm hgathered
  obtain ⟨counts, hfold, -⟩ := Except.bind_ok.mp hcounts
  obtain ⟨-, hstated⟩ := foldlM_counted hsupported hgathered hfold
  obtain ⟨hnames, hdifferent⟩ := inventory_perm (guardThat_ok.mp hinventory)
  simp only [ReportSummary.passed, Bool.and_eq_true, decide_eq_true_eq, List.countP_eq_zero] at hpassed
  obtain ⟨⟨-, hfailed⟩, hskipped⟩ := hpassed
  have hcase : ∀ e ∈ root.subtree, e.tag = "testcase" →
      e ∈ (elements.map Located.element).filter fun e => e.tag = "testcase" :=
    fun e he htag => List.mem_filter.mpr ⟨hperm.mem_iff.mpr he, decide_eq_true htag⟩
  refine ⟨root, hroot, ?_, ?_, hdifferent, fun e he htag => ?_, fun e he htag => ?_, ?_⟩
  · exact fun d hd => checkChildren_ok.mp (hsupported d hd)
  · exact (((hperm.filter _).map caseName).symm).trans hnames
  · exact outcome_of_passed (Bool.eq_false_iff.mpr (hfailed e (hcase e he htag)))
      (Bool.eq_false_iff.mpr (hskipped e (hcase e he htag)))
  · exact status_of_passed (List.forM_ok.mp hstatus e (hcase e he htag))
      (Bool.eq_false_iff.mpr (hfailed e (hcase e he htag)))
  · intro e he hsuite counter value hvalue
    obtain ⟨l, hl, rfl⟩ := List.mem_map.mp (hperm.mem_iff.mpr he)
    exact checkStated_ok (hstated l hl hsuite) hvalue

/-- The stack and its reversal give every suite the five sums over its subtree; and a report that
counts as passed is well nested, has the expected cases, none of which failed, and states no other
count than those sums. -/
theorem report_accepted :
    (∀ report : Within, ∃ elements, validatedStructure report.root = .ok elements ∧
      (elements.map Located.element).Perm report.root.subtree ∧
      ∀ before l after counts, elements.reverse = before ++ l :: after →
        before.foldlM countElement ∅ = .ok counts → l.element.tag ∈ suiteTags →
        suiteCounts counts l = totals l.element) ∧
    ∀ content expected summary, parseReport content expected = .ok summary → summary.passed →
      ∃ root, parseRoot content = .ok root ∧ Passing root expected :=
  ⟨Within.gathered, fun _ _ _ h hpassed => parseReport_passed h hpassed⟩

end

/-! ## 5. A count with a zero before it, and suites within suites -/

namespace PaddedReport

def caseElement : Element := .node "testcase" [("name", "a")] []

def root : Element := .node "testsuite" [("tests", "01")] [caseElement]

def text : PyStr := pyStr "<testsuite tests=\"01\"><testcase name=\"a\"/></testsuite>"

/-- Two suites, one of which holds a third. -/
def nested : Element :=
  .node "testsuites" [("tests", "3"), ("failures", "0")]
    [.node "testsuite" [("tests", "2")]
        [caseElement, .node "testsuite" [("tests", "1")] [.node "testcase" [("name", "b")] []]],
      .node "testsuite" [("skipped", "0")] [.node "testcase" [("name", "c")] []]]

def nestedText : PyStr :=
  pyStr ("<testsuites tests=\"3\" failures=\"0\"><testsuite tests=\"2\"><testcase name=\"a\"/>" ++
    "<testsuite tests=\"1\"><testcase name=\"b\"/></testsuite></testsuite>" ++
    "<testsuite skipped=\"0\"><testcase name=\"c\"/></testsuite></testsuites>")

/-- The trees of these texts. -/
scoped instance : ElementTree where
  fromstring document :=
    if document = text then some root else if document = nestedText then some nested else none

end PaddedReport

open PaddedReport in
theorem padded_count_passes :
    parseReport (utf8 text) ["a"] = .ok ⟨1, 0, 0⟩ ∧ (ReportSummary.mk 1 0 0).passed = true ∧
      root.get "tests" = some "01" ∧ "01".toList ≠ Nat.toDigits 10 (totals root .tests) := by
  decide +kernel

open PaddedReport in
theorem report_accepted_nested :
    ∃ found, parseRoot (utf8 nestedText) = .ok found ∧ Passing found ["a", "b", "c"] :=
  report_accepted.2 (utf8 nestedText) ["a", "b", "c"] ⟨3, 0, 0⟩ (by decide +kernel) (by decide)

end Maestro

end NokincFactory
