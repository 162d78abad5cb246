/-!
# Element trees

A document in the form in which Python's `ElementTree` gives it: elements with their attributes and
children, and comments among them. The text between the elements is left out. What a reader finds by a tag
is searched at two depths, among the children of an element and in its whole subtree.

## Main results

* `Element.iterAll_append`, `Element.iterAll_map`: the search over a list of children
* `Element.iterAll_leaves`, `Element.iter_listing`: the search over a list of childless elements of one tag
-/

namespace ZapTrace

/-- A node of a document. -/
inductive Element where
  | element (tag : String) (attrib : List (String × String)) (children : List Element)
  | comment (text : String)

namespace Element

/-- A comment has no tag that a search could name. -/
def tag? : Element → Option String
  | element tag _ _ => some tag
  | comment _ => none

/-- The value of an attribute. -/
def get? : Element → String → Option String
  | element _ attrib _, name => attrib.lookup name
  | comment _, _ => none

/-- `el.get(name, default)` -/
def get (el : Element) (name default : String) : String := (el.get? name).getD default

def children : Element → List Element
  | element _ _ children => children
  | comment _ => []

/-- An element without children. -/
def leaf (tag : String) (attrib : List (String × String)) : Element := element tag attrib []

@[simp] theorem get_leaf (tag : String) (attrib : List (String × String)) (name default : String) :
    (leaf tag attrib).get name default = (attrib.lookup name).getD default := rfl

@[simp] theorem get?_leaf (tag : String) (attrib : List (String × String)) (name : String) :
    (leaf tag attrib).get? name = attrib.lookup name := rfl

@[simp] theorem get_element (tag : String) (attrib : List (String × String)) (children : List Element)
    (name default : String) : (element tag attrib children).get name default = (attrib.lookup name).getD default :=
  rfl

@[simp] theorem tag?_leaf (tag : String) (attrib : List (String × String)) :
    (leaf tag attrib).tag? = some tag := rfl

mutual

/-- `el.iter(name)`: the element itself is among those that are searched. -/
def iter (name : String) : Element → List Element
  | element tag attrib children =>
    if tag = name then element tag attrib children :: iterAll name children else iterAll name children
  | comment _ => []

/-- The search over the children of an element. -/
def iterAll (name : String) : List Element → List Element
  | [] => []
  | child :: rest => iter name child ++ iterAll name rest

end

/-- `el.findall(name)` -/
def findall (name : String) (el : Element) : List Element := el.children.filter fun child => child.tag? = some name

/-- `el.findall(".//" + name)` -/
def findallBelow (name : String) (el : Element) : List Element := iterAll name el.children

/-! ## The search over a list of children -/

theorem iterAll_append (name : String) (xs ys : List Element) :
    iterAll name (xs ++ ys) = iterAll name xs ++ iterAll name ys := by
  induction xs with
  | nil => rfl
  | cons x xs ih => rw [List.cons_append, iterAll, iterAll, ih, List.append_assoc]

theorem iterAll_map {α : Type} (name : String) (node : α → Element) (xs : List α) :
    iterAll name (xs.map node) = xs.flatMap fun x => iter name (node x) := by
  induction xs with
  | nil => rfl
  | cons x xs ih => rw [List.map_cons, iterAll, ih, List.flatMap_cons]

/-- The search over childless elements of one tag finds all of them or none. -/
theorem iterAll_leaves {α : Type} (name tag : String) (attrib : α → List (String × String)) (xs : List α) :
    iterAll name (xs.map fun x => leaf tag (attrib x)) =
      if tag = name then xs.map fun x => leaf tag (attrib x) else [] := by
  induction xs with
  | nil => simp [iterAll]
  | cons x xs ih =>
    rw [List.map_cons, iterAll, ih, leaf, iter, iterAll]
    by_cases htag : tag = name
    · rw [if_pos htag, if_pos htag, if_pos htag]
      rfl
    · rw [if_neg htag, if_neg htag, if_neg htag]
      rfl

/-- The search in an element that lists childless elements of one tag. -/
theorem iter_listing {α : Type} {name tag : String} (h : tag ≠ name) (attrib : List (String × String))
    (kid : String) (kidAttrib : α → List (String × String)) (xs : List α) :
    (element tag attrib (xs.map fun x => leaf kid (kidAttrib x))).iter name =
      if kid = name then xs.map fun x => leaf kid (kidAttrib x) else [] := by
  rw [iter, if_neg h, iterAll_leaves]

theorem filter_leaves {α : Type} (name tag : String) (attrib : α → List (String × String)) (xs : List α) :
    ((xs.map fun x => leaf tag (attrib x)).filter fun child => child.tag? = some name) =
      if tag = name then xs.map fun x => leaf tag (attrib x) else [] := by
  by_cases htag : tag = name
  · rw [if_pos htag, List.filter_eq_self]
    simp [htag]
  · rw [if_neg htag, List.filter_eq_nil_iff]
    simp [htag]

end Element

end ZapTrace
