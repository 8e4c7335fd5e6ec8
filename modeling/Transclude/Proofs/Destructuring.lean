/-
  Transclude/Proofs/Destructuring.lean
  ====================================
  **What is left of an object that a declaration takes apart.**

  A pattern names keys: those of properties that are identifiers, and the names that
  are bound where there is no such property.  Of an object that is taken apart the
  members with these keys are left, in the order in which the pattern first names
  them (`restrict_eq`).

  A pattern also reads the keys that stand in it as quoted names.  These it does not
  name, so that a member is lost which it reads in this way only
  (`quoted_member_lost`).  Every other key that it reads has in what is left the value
  that it has in the whole object (`restrict_keeps`).
-/
import Mathlib.Data.List.Basic
import Transclude.Destructuring
import Transclude.Proofs.Json.Grammar

namespace Transclude

open Json

/-! ### The keys that a pattern names -/

/-- The name of the property that an element reads, where it is an identifier; otherwise the
    name that it binds, where that is one. -/
def Node.namedKey? (element : Node) : Option String :=
  (element.propertyName?.bind Node.identifier?).or (element.boundName?.bind Node.identifier?)

/-- The keys that a pattern names, each where it is named first. -/
def Node.namedKeys (pattern : Node) : List String :=
  (pattern.children.filterMap Node.namedKey?).eraseDups

/-- The members with the given keys, in the order of the keys. -/
def Json.Members.select (members : Members) (keys : List String) : Members :=
  keys.filterMap fun key => (members.lookup key).map fun value => (key, value)

namespace Json.Members

theorem select_concat (members : Members) (keys : List String) (key : String) :
    members.select (keys ++ [key]) =
      members.select keys ++ ((members.lookup key).map fun value => (key, value)).toList := by
  rw [select, List.filterMap_append, List.filterMap_cons, List.filterMap_nil]
  cases members.lookup key <;> rfl

theorem lookup_select (members : Members) (keys : List String) (key : String) :
    (members.select keys).lookup key = if key ∈ keys then members.lookup key else none := by
  induction keys with
  | nil => rfl
  | cons first keys ih =>
    rw [select, List.filterMap_cons, ← select]
    cases hfirst : members.lookup first with
    | none =>
      by_cases hkey : key = first
      · subst hkey
        simp [ih, hfirst]
      · simp [ih, hkey]
    | some value =>
      rw [Option.map_some, lookup_cons, ih]
      by_cases hkey : key = first
      · subst hkey
        simp [hfirst]
      · simp [hkey]

theorem keys_select (members : Members) (keys : List String) :
    ((members.select keys).map Prod.fst).Sublist keys := by
  induction keys with
  | nil => exact .slnil
  | cons first keys ih =>
    rw [select, List.filterMap_cons, ← select]
    cases members.lookup first with
    | none => exact ih.cons first
    | some value => exact ih.cons_cons first

theorem insert_of_lookup {members : Members} {key : String} {value : Value}
    (h : members.lookup key = some value) : members.insert key value = members := by
  induction members with
  | nil => cases h
  | cons entry members ih =>
    obtain ⟨k, v⟩ := entry
    rw [lookup_cons] at h
    rw [insert]
    by_cases hk : key = k
    · subst hk
      rw [if_pos rfl] at h ⊢
      rw [Option.some.inj h]
    · rw [if_neg hk] at h
      rw [if_neg (Ne.symm hk), ih h]

/-- Setting the members with the given keys sets each of them once. -/
theorem ofList_select (members : Members) (keys : List String) :
    ofList (members.select keys) = members.select keys.eraseDups := by
  induction keys using List.reverseRecOn with
  | nil => rfl
  | append_singleton keys key ih =>
    have herase : (keys ++ [key]).eraseDups =
        if key ∈ keys then keys.eraseDups else keys.eraseDups ++ [key] := by
      rw [List.eraseDups_append]
      by_cases hmem : key ∈ keys <;> simp [hmem, List.removeAll, List.eraseDups_cons]
    rw [select_concat, herase]
    cases hkey : members.lookup key with
    | none =>
      rw [Option.map_none, Option.toList_none, List.append_nil, ih]
      split
      · rfl
      · rw [select_concat, hkey, Option.map_none, Option.toList_none, List.append_nil]
    | some value =>
      rw [Option.map_some, Option.toList_some, ofList_concat, ih]
      split
      · next hmem =>
        -- the key has been set before, to the same value
        apply insert_of_lookup
        rw [lookup_select, if_pos (List.mem_eraseDups.mpr hmem), hkey]
      · next hmem =>
        have hnew : key ∉ (members.select keys.eraseDups).map Prod.fst := by
          intro h
          exact hmem (List.mem_eraseDups.mp ((keys_select members keys.eraseDups).subset h))
        rw [insert_of_not_mem hnew, select_concat, hkey]
        rfl

/-- What is selected from an object in normal form is in normal form. -/
theorem normal_select {members : Members} (h : (Value.object members).Normal)
    (keys : List String) : (Value.object (members.select keys.eraseDups)).Normal := by
  cases h with
  | object _ hmembers =>
    rw [← ofList_select]
    refine .object (nodup_ofList _) (forall_ofList ?_)
    intro entry hentry
    obtain ⟨key, -, hentry⟩ := List.mem_filterMap.mp hentry
    obtain ⟨value, hvalue, rfl⟩ := Option.map_eq_some_iff.mp hentry
    obtain ⟨before, after, rfl, -⟩ := List.lookup_eq_some_iff.mp hvalue
    exact hmembers (key, value) (by simp)

theorem select_congr {members members' : Members} {keys : List String}
    (h : ∀ key ∈ keys, members'.lookup key = members.lookup key) :
    members'.select keys = members.select keys := by
  apply List.filterMap_congr
  intro key hkey
  rw [h key hkey]

end Json.Members

/-- **What is left of an object are the members that the pattern names**, each once and in
    the order in which they are named first. -/
theorem Pattern.restrict_eq (pattern : Node) (members : Members) :
    Pattern.restrict ⟨pattern.children.map Binding.ofNode⟩ members =
      members.select pattern.namedKeys := by
  have hkey : Binding.key? ∘ Binding.ofNode = Node.namedKey? := by
    funext element
    rw [Function.comp_apply, Binding.key?, Binding.ofNode, Node.namedKey?]
    cases element.propertyName?.bind Node.identifier? <;> rfl
  have hkeys : Pattern.keys ⟨pattern.children.map Binding.ofNode⟩ =
      pattern.children.filterMap Node.namedKey? := by
    rw [Pattern.keys, List.filterMap_map, hkey]
  rw [Pattern.restrict, hkeys, Node.namedKeys, ← Members.ofList_select, Members.select]

/-! ### The keys that a pattern reads -/

/-- The key that an element of an object pattern reads, where it is spelled out: the name that
    is bound if no property is named, and else the name of the property, plain or quoted. -/
def Node.readKey? (element : Node) : Option String :=
  match element.kind, element.children with
  | .bindingElement false, name :: _ => name.identifier?
  | .bindingElement true, property :: _ :: _ => property.identifier?.or property.string?
  | _, _ => none

/-- An element that names its property by a string. -/
def Node.ReadsQuoted (element : Node) : Prop :=
  ∃ property text, element.propertyName? = some property ∧ property.kind = .stringLiteral text

/-- What taking an object apart gives to the elements of a pattern: beside each name or pattern
    that is bound, the value under the key that is read, if the object has it. -/
def Node.boundValues (pattern : Node) (members : Members) : List (Option Node × Option Value) :=
  pattern.children.map fun element =>
    (element.boundName?, element.readKey?.bind fun key => members.lookup key)

theorem Node.namedKey?_of_readKey? {element : Node} {key : String}
    (h : element.readKey? = some key) (hplain : ¬ element.ReadsQuoted) :
    element.namedKey? = some key := by
  unfold Node.readKey? at h
  split at h
  · next name rest hkind hchildren =>
    have hproperty : element.propertyName? = none := by rw [Node.propertyName?, hkind]
    have hbound : element.boundName? = some name := by
      simp [Node.boundName?, hkind, hchildren]
    rw [Node.namedKey?, hproperty, hbound]
    exact h
  · next property bound rest hkind hchildren =>
    have hproperty : element.propertyName? = some property := by
      simp [Node.propertyName?, hkind, hchildren]
    have hstring : property.string? = none := by
      unfold Node.string?
      split
      · next text htext => exact absurd ⟨property, text, hproperty, htext⟩ hplain
      · rfl
    rw [hstring, Option.or_none] at h
    rw [Node.namedKey?, hproperty, Option.bind_some, h, Option.some_or]
  · cases h

theorem Node.mem_namedKeys {pattern element : Node} {key : String}
    (hmem : element ∈ pattern.children) (hkey : element.namedKey? = some key) :
    key ∈ pattern.namedKeys :=
  List.mem_eraseDups.mpr (List.mem_filterMap.mpr ⟨element, hmem, hkey⟩)

/-- **What is left has the values that the pattern reads**, unless it reads them under a quoted
    name: a key keeps its value if the pattern names it, and is lost if not.  So nothing is
    bound to another value than the whole object would give if no name is quoted. -/
theorem Pattern.restrict_keeps {pattern : Node} (hpattern : pattern.kind = .objectBindingPattern)
    (members : Members) :
    ∃ p, Pattern.ofNode? pattern = some p ∧
      (∀ key, (p.restrict members).lookup key =
        if key ∈ pattern.namedKeys then members.lookup key else none) ∧
      (∀ element ∈ pattern.children, ¬ element.ReadsQuoted → ∀ key,
        element.readKey? = some key → (p.restrict members).lookup key = members.lookup key) ∧
      ((∀ element ∈ pattern.children, element.readKey?.isSome ∧ ¬ element.ReadsQuoted) →
        pattern.boundValues (p.restrict members) = pattern.boundValues members) := by
  have hlookup : ∀ key,
      (Pattern.restrict ⟨pattern.children.map Binding.ofNode⟩ members).lookup key =
        if key ∈ pattern.namedKeys then members.lookup key else none := by
    intro key
    rw [restrict_eq, Members.lookup_select]
  have hkept : ∀ element ∈ pattern.children, ¬ element.ReadsQuoted → ∀ key,
      element.readKey? = some key →
      (Pattern.restrict ⟨pattern.children.map Binding.ofNode⟩ members).lookup key =
        members.lookup key := by
    intro element hmem hplain key hkey
    rw [hlookup, if_pos (Node.mem_namedKeys hmem (Node.namedKey?_of_readKey? hkey hplain))]
  refine ⟨_, if_pos hpattern, hlookup, hkept, ?_⟩
  intro hplain
  apply List.map_congr_left
  intro element hmem
  obtain ⟨hread, hquoted⟩ := hplain element hmem
  obtain ⟨key, hkey⟩ := Option.isSome_iff_exists.mp hread
  rw [hkey, Option.bind_some, Option.bind_some, hkept element hmem hquoted key hkey]

namespace Sample

def node (kind : Kind) (children : List Node) : Node := ⟨⟨0⟩, kind, .origin, children⟩

/-- An element that reads a property and binds the name `x`. -/
def element (property : Kind) : Node :=
  node (.bindingElement true) [node property [], node (.identifier "x") []]

/-- A name, and a property under a name of its own. -/
def pattern : Node :=
  node .objectBindingPattern
    [node (.bindingElement false) [node (.identifier "a") []], element (.identifier "k")]

/-- A property under a quoted name. -/
def quoted : Node := node .objectBindingPattern [element (.stringLiteral "k")]

def members : Members := [("unread", .null), ("k", .bool true), ("a", .bool false)]

theorem plain : ∀ element ∈ pattern.children, element.readKey?.isSome ∧ ¬ element.ReadsQuoted := by
  intro element hmem
  rcases List.mem_pair.mp hmem with rfl | rfl
  · refine ⟨rfl, ?_⟩
    rintro ⟨property, text, hproperty, -⟩
    cases hproperty
  · refine ⟨rfl, ?_⟩
    rintro ⟨property, text, hproperty, htext⟩
    cases hproperty
    cases htext

end Sample

theorem Pattern.restrict_keeps_sample :
    Sample.pattern.kind = .objectBindingPattern ∧
      ∃ p, Pattern.ofNode? Sample.pattern = some p ∧
        (p.restrict Sample.members).lookup "k" = some (.bool true) ∧
        (p.restrict Sample.members).lookup "unread" = none ∧
        Sample.pattern.boundValues (p.restrict Sample.members) =
          Sample.pattern.boundValues Sample.members := by
  obtain ⟨p, hp, hlookup, -, hbound⟩ := @Pattern.restrict_keeps Sample.pattern rfl Sample.members
  exact ⟨rfl, p, hp, hlookup "k", hlookup "unread", hbound Sample.plain⟩

/-- A pattern that reads a member under a quoted name loses it. -/
theorem Pattern.quoted_member_lost :
    Sample.quoted.kind = .objectBindingPattern ∧
      Sample.element (.stringLiteral "k") ∈ Sample.quoted.children ∧
      (Sample.element (.stringLiteral "k")).readKey? = some "k" ∧
      Sample.members.lookup "k" = some (.bool true) ∧
      ∃ p, Pattern.ofNode? Sample.quoted = some p ∧ (p.restrict Sample.members).lookup "k" = none :=
  ⟨rfl, List.mem_singleton_self _, rfl, rfl, _, rfl, rfl⟩

end Transclude
