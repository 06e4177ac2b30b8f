/-
  File:      NokincFactory/Lib/ElementTree.lean
  Subject:   Elements of a document as a tree, and the elements below one.

  Texts between elements are left out, and how a document is parsed.

  * `Element`, `get`, `find`: an element, an attribute of it, a child of it;
  * `subtree`, `depth`: an element with all that are below it, in document order;
  * `Located`, `place`: an element at its place below a root;
  * `mem_subtree_iff`: what is below an element stands at some place.
-/
import Mathlib.Algebra.BigOperators.Group.List.Basic
import Mathlib.Data.List.Perm.Basic

namespace NokincFactory

/-- An element of a document. -/
inductive Element where
  | node (tag : String) (attributes : List (String × String)) (children : List Element)

namespace Element

def tag : Element → String
  | node tag _ _ => tag

def attributes : Element → List (String × String)
  | node _ attributes _ => attributes

def children : Element → List Element
  | node _ _ children => children

/-- The value of an attribute. -/
def get (e : Element) (key : String) : Option String :=
  (e.attributes.find? fun pair => pair.1 = key).map Prod.snd

/-- The first child with a tag. -/
def find (e : Element) (tag : String) : Option Element := e.children.find? fun child => child.tag = tag

theorem find_isSome {e : Element} {tag : String} :
    (e.find tag).isSome = true ↔ ∃ child ∈ e.children, child.tag = tag := by
  simp [find, List.find?_isSome]

/-! ## 1. What is below an element -/

mutual
/-- An element and all below it, in document order. -/
def subtree : Element → List Element
  | node tag attributes children => node tag attributes children :: subtrees children

def subtrees : List Element → List Element
  | [] => []
  | e :: es => subtree e ++ subtrees es
end

mutual
/-- How many levels are below an element. -/
def depth : Element → ℕ
  | node _ _ children => depths children

def depths : List Element → ℕ
  | [] => 0
  | e :: es => max (depth e + 1) (depths es)
end

theorem subtrees_eq (es : List Element) : subtrees es = es.flatMap subtree := by
  induction es with
  | nil => rfl
  | cons e es ih => rw [subtrees, List.flatMap_cons, ih]

theorem subtree_eq (e : Element) : e.subtree = e :: e.children.flatMap subtree := by
  cases e with
  | node tag attributes children => rw [subtree, subtrees_eq]; rfl

theorem self_mem_subtree (e : Element) : e ∈ e.subtree := by
  rw [subtree_eq]
  exact List.mem_cons_self

theorem child_subtree {e child d : Element} (hchild : child ∈ e.children) (hd : d ∈ child.subtree) :
    d ∈ e.subtree := by
  rw [subtree_eq]
  exact List.mem_cons_of_mem e (List.mem_flatMap.mpr ⟨child, hchild, hd⟩)

theorem depth_child {e child : Element} (h : child ∈ e.children) : child.depth + 1 ≤ e.depth := by
  have hdepths : ∀ es : List Element, child ∈ es → child.depth + 1 ≤ depths es := by
    intro es
    induction es with
    | nil => exact fun hmem => (nomatch hmem)
    | cons e es ih =>
      intro hmem
      rw [depths]
      rcases List.mem_cons.mp hmem with rfl | hmem
      · exact Nat.le_max_left _ _
      · exact Nat.le_trans (ih hmem) (Nat.le_max_right _ _)
  cases e with
  | node tag attributes children =>
    rw [depth]
    exact hdepths children h

/-! ## 2. Places -/

/-- The element at the place that a path of child numbers names. -/
def place (root : Element) : List ℕ → Option Element
  | [] => some root
  | i :: path => root.children[i]?.bind fun child => child.place path

theorem place_append (root : Element) (path : List ℕ) (i : ℕ) :
    root.place (path ++ [i]) = (root.place path).bind fun e => e.children[i]? := by
  induction path generalizing root with
  | nil =>
    show (root.children[i]?.bind fun child => some child) = root.children[i]?
    cases root.children[i]? with
    | none => rfl
    | some child => rfl
  | cons j path ih =>
    rw [List.cons_append, Element.place, Element.place]
    cases root.children[j]? with
    | none => rfl
    | some child => exact ih child

/-- What stands below an element stands at some place. -/
theorem mem_subtree_iff {root e : Element} : e ∈ root.subtree ↔ ∃ path, root.place path = some e := by
  constructor
  · have hplace : ∀ n (root : Element), root.subtree.length ≤ n → e ∈ root.subtree →
        ∃ path, root.place path = some e := by
      intro n
      induction n with
      | zero =>
        intro root hlength hmem
        rw [List.length_eq_zero_iff.mp (Nat.le_zero.mp hlength)] at hmem
        cases hmem
      | succ n ih =>
        intro root hlength hmem
        rw [subtree_eq] at hlength hmem
        rcases List.mem_cons.mp hmem with rfl | hmem
        · exact ⟨[], rfl⟩
        · obtain ⟨child, hchild, hbelow⟩ := List.mem_flatMap.mp hmem
          have hsub : child.subtree.Sublist (root.children.flatMap subtree) :=
            List.sublist_flatten_of_mem (List.mem_map_of_mem hchild)
          have hshort := hsub.length_le
          rw [List.length_cons] at hlength
          obtain ⟨path, hpath⟩ := ih child (by omega) hbelow
          obtain ⟨i, hi⟩ := List.mem_iff_getElem?.mp hchild
          refine ⟨i :: path, ?_⟩
          rw [Element.place, hi]
          exact hpath
    exact hplace root.subtree.length root (Nat.le_refl _)
  · rintro ⟨path, hpath⟩
    induction path generalizing root with
    | nil =>
      obtain rfl := Option.some.inj hpath
      exact self_mem_subtree root
    | cons i path ih =>
      rw [Element.place] at hpath
      obtain ⟨child, hchild, hpath⟩ := Option.bind_eq_some_iff.mp hpath
      exact child_subtree (List.mem_of_getElem? hchild) (ih hpath)

theorem subtree_trans {root e d : Element} (he : e ∈ root.subtree) (hd : d ∈ e.subtree) :
    d ∈ root.subtree := by
  obtain ⟨path, hpath⟩ := mem_subtree_iff.mp he
  induction path generalizing root with
  | nil =>
    obtain rfl := Option.some.inj hpath
    exact hd
  | cons i path ih =>
    rw [Element.place] at hpath
    obtain ⟨child, hchild, hpath⟩ := Option.bind_eq_some_iff.mp hpath
    exact child_subtree (List.mem_of_getElem? hchild)
      (ih (mem_subtree_iff.mpr ⟨path, hpath⟩) hpath)

/-- An element and its place: two elements of a document are one iff their places are. -/
structure Located where
  path : List ℕ
  element : Element

namespace Located

/-- The children of an element at their places. -/
def children (l : Located) : List Located :=
  l.element.children.zipIdx.map fun child => ⟨l.path ++ [child.2], child.1⟩

/-- An element stands below a root where it says. -/
def Under (root : Element) (l : Located) : Prop := root.place l.path = some l.element

theorem children_map (l : Located) : l.children.map Located.element = l.element.children := by
  rw [children, List.map_map]
  exact List.zipIdx_map_fst 0 _

theorem children_under {root : Element} {l child : Located} (h : Under root l)
    (hchild : child ∈ l.children) : Under root child := by
  obtain ⟨⟨e, i⟩, hmem, rfl⟩ := List.mem_map.mp hchild
  have hget := List.mem_zipIdx_iff_getElem?.mp hmem
  rw [Under, place_append, h]
  exact hget

end Located

end Element

end NokincFactory
