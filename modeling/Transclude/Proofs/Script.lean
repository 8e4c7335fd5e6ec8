/-
  Transclude/Proofs/Script.lean
  =============================
  **What a literal means to the script that it is put into.**

  A script evaluates a literal to a value of its own: keywords, strings and numbers
  stand for themselves, an array has its elements in order, and an object gets a
  property of its own for each assignment, with one exception.  An assignment to
  `__proto__` under a name that is not computed sets the prototype of the object, and
  leaves no property behind.

  The encoder never computes a name.  What comes out is therefore the value that was
  encoded, except that the members called `__proto__` are gone from the objects they
  were members of (`eval?_ofValue`).  All members are there, at every depth, exactly
  if no object in the value has a member of that name (`sameContent_ofJson_iff`).
-/
import Transclude.Proofs.LiteralTree

namespace Transclude

namespace Json.Value

mutual

/-- The keys of all objects in a value, at every depth. -/
def keys : Value → List String
  | .array items => keysOfItems items
  | .object members => keysOfMembers members
  | .null | .bool _ | .number _ | .string _ => []

def keysOfItems : List Value → List String
  | [] => []
  | item :: items => item.keys ++ keysOfItems items

def keysOfMembers : List (String × Value) → List String
  | [] => []
  | (key, value) :: members => key :: (value.keys ++ keysOfMembers members)

end

theorem mem_keysOfItems {key : String} {items : List Value} :
    key ∈ keysOfItems items ↔ ∃ item ∈ items, key ∈ item.keys := by
  induction items with
  | nil => simp [keysOfItems]
  | cons item items ih => simp [keysOfItems, ih]

theorem mem_keysOfMembers {key : String} {members : Members} :
    key ∈ keysOfMembers members ↔
      key ∈ members.map Prod.fst ∨ ∃ member ∈ members, key ∈ member.2.keys := by
  induction members with
  | nil => simp [keysOfMembers]
  | cons member members ih =>
    obtain ⟨k, value⟩ := member
    simp only [keysOfMembers, List.mem_cons, List.mem_append, ih, List.map_cons, exists_eq_or_imp]
    tauto

end Json.Value

namespace Script

/-! ### Values of a script -/

inductive Value where
  | null
  | bool (value : Bool)
  /-- A number, by its sign and the digits behind it. -/
  | number (negative : Bool) (digits : String)
  | string (text : String)
  | array (elements : List Value)
  /-- The properties of its own, in the order of their creation, and the prototype that it
      was given, if any. -/
  | object (own : List (String × Value)) (prototype : Option Value)

/-- Only objects and `null` are taken for a prototype; an array is an object here. -/
def Value.canBePrototype : Value → Bool
  | .null | .array _ | .object _ _ => true
  | .bool _ | .number _ _ | .string _ => false

/-- What a minus makes of a number. -/
def Value.negate? : Value → Option Value
  | .number negative digits => some (.number (!negative) digits)
  | _ => none

/-! ### Object literals -/

/-- The name of a property, as it is written or in brackets. -/
inductive PropertyName where
  | plain (key : String)
  | computed (key : String)
deriving DecidableEq, Repr

namespace PropertyName

def key : PropertyName → String
  | .plain key => key
  | .computed key => key

def ofNode? : Node → Option PropertyName
  | ⟨_, .identifier name, _, []⟩ => some (.plain name)
  | ⟨_, .stringLiteral text, _, []⟩ => some (.plain text)
  | ⟨_, .computedPropertyName, _, [⟨_, .stringLiteral text, _, []⟩]⟩ => some (.computed text)
  | _ => none

end PropertyName

/-- The key under which an object literal sets a prototype. -/
def prototypeKey : String := "__proto__"

abbrev Properties := List (PropertyName × Value)

/-- What an object has while it is being built. -/
structure Fields where
  own : List (String × Value)
  prototype : Option Value

/-- Sets a property: in its place if it is there, else behind all others. -/
def put (own : List (String × Value)) (key : String) (value : Value) : List (String × Value) :=
  if key ∈ own.map Prod.fst then
    own.map fun property => if property.1 = key then (key, value) else property
  else own ++ [(key, value)]

namespace Fields

/-- Carries out one assignment of an object literal. -/
def define (fields : Fields) (name : PropertyName) (value : Value) : Fields :=
  if name = .plain prototypeKey then
    if value.canBePrototype then { fields with prototype := some value } else fields
  else { fields with own := put fields.own name.key value }

def ofProperties (properties : Properties) : Fields :=
  properties.foldl (fun (fields : Fields) property => fields.define property.1 property.2)
    ⟨[], none⟩

end Fields

/-- The object of a literal.  To set the prototype twice is an error of syntax. -/
def objectOf? (properties : Properties) : Option Value :=
  if 1 < properties.countP (fun property => property.1 = .plain prototypeKey) then none
  else
    let fields := Fields.ofProperties properties
    some (.object fields.own fields.prototype)

/-! ### Evaluation -/

mutual

/-- The value of a literal, `none` for a tree that is no literal. -/
def eval? : Node → Option Value
  | ⟨_, .nullKeyword, _, []⟩ => some .null
  | ⟨_, .trueKeyword, _, []⟩ => some (.bool true)
  | ⟨_, .falseKeyword, _, []⟩ => some (.bool false)
  | ⟨_, .stringLiteral text, _, []⟩ => some (.string text)
  | ⟨_, .numericLiteral digits, _, []⟩ => some (.number false digits)
  | ⟨_, .prefixUnaryExpression .minus, _, [operand]⟩ => (eval? operand).bind Value.negate?
  | ⟨_, .arrayLiteralExpression, _, elements⟩ => (evalAll? elements).map Value.array
  | ⟨_, .objectLiteralExpression, _, properties⟩ => (evalProperties? properties).bind objectOf?
  | _ => none

def evalAll? : List Node → Option (List Value)
  | [] => some []
  | n :: rest => do
    let value ← eval? n
    let values ← evalAll? rest
    return value :: values

def evalProperties? : List Node → Option Properties
  | [] => some []
  | ⟨_, .propertyAssignment, _, [name, initializer]⟩ :: rest => do
    let name ← PropertyName.ofNode? name
    let value ← eval? initializer
    let properties ← evalProperties? rest
    return (name, value) :: properties
  | _ :: _ => none

end

/-! ### Decoded values seen by a script -/

/-- The object that has the given members, but for one that gives it a prototype. -/
def Value.ofEntries (entries : List (String × Value)) : Value :=
  .object (entries.filter fun entry => entry.1 ≠ prototypeKey)
    ((entries.lookup prototypeKey).filter Value.canBePrototype)

mutual

/-- What a script sees of a decoded value. -/
def Value.ofJson : Json.Value → Value
  | .null => .null
  | .bool value => .bool value
  | .number n => .number n.negative n.magnitudeText
  | .string text => .string text
  | .array items => .array (ofItems items)
  | .object members => .ofEntries (ofMembers members)

def ofItems : List Json.Value → List Value
  | [] => []
  | item :: items => Value.ofJson item :: ofItems items

def ofMembers : List (String × Json.Value) → List (String × Value)
  | [] => []
  | (key, value) :: members => (key, Value.ofJson value) :: ofMembers members

end

theorem ofItems_eq (items : List Json.Value) : ofItems items = items.map Value.ofJson := by
  induction items with
  | nil => simp only [ofItems, List.map_nil]
  | cons item items ih => simp only [ofItems, ih, List.map_cons]

theorem ofMembers_eq (members : Json.Members) :
    ofMembers members = members.map fun member => (member.1, Value.ofJson member.2) := by
  induction members with
  | nil => simp only [ofMembers, List.map_nil]
  | cons member members ih => simp only [ofMembers, ih, List.map_cons]

theorem keys_ofMembers (members : Json.Members) :
    (ofMembers members).map Prod.fst = members.map Prod.fst := by
  rw [ofMembers_eq, List.map_map]
  rfl

/-! ### Evaluating what was encoded -/

theorem put_of_not_mem {own : List (String × Value)} {key : String}
    (h : key ∉ own.map Prod.fst) (value : Value) : put own key value = own ++ [(key, value)] :=
  if_neg h

namespace Fields

theorem define_prototype (fields : Fields) (value : Value) :
    fields.define (.plain prototypeKey) value =
      ⟨fields.own, ((some value).filter Value.canBePrototype).or fields.prototype⟩ := by
  rw [define, if_pos rfl, Option.filter_some]
  split <;> rfl

theorem define_own (fields : Fields) {key : String} (hkey : key ≠ prototypeKey)
    (hfresh : key ∉ fields.own.map Prod.fst) (value : Value) :
    fields.define (.plain key) value = ⟨fields.own ++ [(key, value)], fields.prototype⟩ := by
  have hplain : PropertyName.plain key ≠ .plain prototypeKey := by
    intro h
    exact hkey (PropertyName.plain.inj h)
  rw [define, if_neg hplain, PropertyName.key, put_of_not_mem hfresh]

/-- Assignments to distinct keys that are all new add one property each, the one that sets the
    prototype apart. -/
theorem foldl_define {entries : List (String × Value)} (hkeys : (entries.map Prod.fst).Nodup) :
    ∀ fields : Fields, (∀ key ∈ entries.map Prod.fst, key ∉ fields.own.map Prod.fst) →
      entries.foldl (fun (fields : Fields) entry => fields.define (.plain entry.1) entry.2) fields =
        ⟨fields.own ++ entries.filter fun entry => entry.1 ≠ prototypeKey,
          ((entries.lookup prototypeKey).filter Value.canBePrototype).or fields.prototype⟩ := by
  induction entries with
  | nil =>
    intro fields _
    simp
  | cons entry entries ih =>
    intro fields hfresh
    obtain ⟨key, value⟩ := entry
    simp only [List.map_cons, List.nodup_cons, List.forall_mem_cons] at hkeys hfresh
    obtain ⟨hnew, hkeys⟩ := hkeys
    obtain ⟨hkey, hfresh⟩ := hfresh
    rw [List.foldl_cons]
    by_cases hproto : key = prototypeKey
    · subst hproto
      -- no other entry sets the prototype
      have hnone : entries.lookup prototypeKey = none := by
        rw [List.lookup_eq_none_iff]
        intro entry hentry
        apply bne_iff_ne.mpr
        intro hsame
        exact hnew (hsame ▸ List.mem_map_of_mem hentry)
      have hrest := ih hkeys
        ⟨fields.own, ((some value).filter Value.canBePrototype).or fields.prototype⟩ hfresh
      rw [define_prototype, hrest]
      simp [hnone]
    · have hbehind : ∀ k ∈ entries.map Prod.fst,
          k ∉ (fields.own ++ [(key, value)]).map Prod.fst := by
        intro k hk hmem
        simp only [List.map_append, List.mem_append, List.map_cons, List.map_nil,
          List.mem_singleton] at hmem
        rcases hmem with hmem | rfl
        · exact hfresh k hk hmem
        · exact hnew hk
      have hother : (prototypeKey == key) = false := beq_eq_false_iff_ne.mpr (Ne.symm hproto)
      rw [define_own fields hproto hkey, ih hkeys ⟨_, fields.prototype⟩ hbehind]
      simp [hproto, List.lookup_cons, hother]

end Fields

/-- **Members with distinct names make an object**, of which one may be the prototype. -/
theorem objectOf?_plain {entries : List (String × Value)} (hkeys : (entries.map Prod.fst).Nodup) :
    objectOf? (entries.map fun entry => (.plain entry.1, entry.2)) = some (.ofEntries entries) := by
  have honce : ¬ 1 < (entries.map fun entry => (PropertyName.plain entry.1, entry.2)).countP
      fun property => property.1 = .plain prototypeKey := by
    have hcount := List.nodup_iff_count_le_one.mp hkeys prototypeKey
    simpa [List.count, List.countP_map, Function.comp_def, beq_eq_decide] using hcount
  have hfields := Fields.foldl_define hkeys ⟨[], none⟩ (fun _ _ => List.not_mem_nil)
  rw [objectOf?, if_neg honce, Fields.ofProperties, List.foldl_map, hfields]
  simp [Value.ofEntries]

open Literal

theorem eval?_number (n : Json.Number) :
    eval? (number n) = some (.number n.negative n.magnitudeText) := by
  rw [number]
  cases n.negative <;> rfl

theorem evalAll?_eq {items : List Json.Value} {elements : List Node}
    (h : EncodesAll items elements)
    (hitems : ∀ item ∈ items, ∀ tree, ofValue item = .ok tree →
      eval? tree = some (.ofJson item)) :
    evalAll? elements = some (ofItems items) := by
  unfold EncodesAll at h
  induction h with
  | nil => simp only [evalAll?, ofItems]
  | cons hhead _ ih =>
    simp only [List.forall_mem_cons] at hitems
    simp only [evalAll?, hitems.1 _ hhead, ih hitems.2, ofItems]
    rfl

theorem evalProperties?_eq {members : Json.Members} {entries : List (String × Node)}
    (h : EncodesMembers members entries)
    (hmembers : ∀ member ∈ members, ∀ tree, ofValue member.2 = .ok tree →
      eval? tree = some (.ofJson member.2)) :
    evalProperties? (entries.map fun entry => ⟨.dummy, .propertyAssignment, .dummy,
        [⟨.dummy, .stringLiteral entry.1, .dummy, []⟩, entry.2]⟩) =
      some ((ofMembers members).map fun entry => (.plain entry.1, entry.2)) := by
  unfold EncodesMembers at h
  induction h with
  | nil => simp only [List.map_nil, evalProperties?, ofMembers]
  | @cons member entry _ _ hhead _ ih =>
    simp only [List.forall_mem_cons] at hmembers
    simp only [List.map_cons, evalProperties?, PropertyName.ofNode?, hhead.1,
      hmembers.1 _ hhead.2, ih hmembers.2, ofMembers]
    rfl

/-- **The literal of a value is evaluated to what a script sees of the value.** -/
theorem eval?_ofValue {v : Json.Value} (hv : v.Normal) :
    ∀ tree, ofValue v = .ok tree → eval? tree = some (.ofJson v) := by
  induction hv with
  | null =>
    intro tree h
    rw [ofValue] at h
    cases h
    rfl
  | bool value =>
    intro tree h
    cases value <;> rw [ofValue] at h <;> cases h <;> rfl
  | @number n _ =>
    intro tree h
    rw [ofValue] at h
    split at h
    · cases h
      exact eval?_number n
    · cases h
  | string text =>
    intro tree h
    rw [ofValue] at h
    cases h
    rfl
  | @array items _ ih =>
    intro tree h
    obtain ⟨elements, helements, rfl⟩ := ofValue_array_eq_ok_iff.mp h
    rw [eval?, evalAll?_eq helements ih, Value.ofJson]
    rfl
  | @object members hkeys _ ih =>
    intro tree h
    obtain ⟨entries, hentries, rfl⟩ := ofValue_object_eq_ok_iff.mp h
    have hnodup : ((ofMembers members).map Prod.fst).Nodup := by
      rw [keys_ofMembers]
      exact hkeys
    rw [eval?, evalProperties?_eq hentries ih, Option.bind_some, objectOf?_plain hnodup,
      Value.ofJson]

/-! ### Which values are there in full -/

/-- A script sees a decoded value in full: at every depth the objects have exactly the keys of
    the members as properties of their own, with the same values. -/
inductive SameContent : Json.Value → Value → Prop
  | null : SameContent .null .null
  | bool (value : Bool) : SameContent (.bool value) (.bool value)
  | number (n : Json.Number) : SameContent (.number n) (.number n.negative n.magnitudeText)
  | string (text : String) : SameContent (.string text) (.string text)
  | array {items : List Json.Value} {elements : List Value}
      (length : items.length = elements.length)
      (places : ∀ (i : Nat) (item : Json.Value) (element : Value), items[i]? = some item →
        elements[i]? = some element → SameContent item element) :
      SameContent (.array items) (.array elements)
  | object {members : Json.Members} {own : List (String × Value)} {prototype : Option Value}
      (keys : ∀ key, key ∈ own.map Prod.fst ↔ key ∈ members.map Prod.fst)
      (values : ∀ (key : String) (value : Json.Value) (seen : Value), (key, value) ∈ members →
        (key, seen) ∈ own → SameContent value seen) :
      SameContent (.object members) (.object own prototype)

theorem sameContent_array_iff {items : List Json.Value} :
    SameContent (.array items) (.ofJson (.array items)) ↔
      ∀ item ∈ items, SameContent item (.ofJson item) := by
  rw [Value.ofJson, ofItems_eq]
  constructor
  · rintro (_ | _ | _ | _ | ⟨-, hplaces⟩) item hitem
    obtain ⟨i, hi⟩ := List.mem_iff_getElem?.mp hitem
    exact hplaces i item (.ofJson item) hi (by rw [List.getElem?_map, hi]; rfl)
  · intro hitems
    apply SameContent.array
    · rw [List.length_map]
    · intro i item element hitem helement
      rw [List.getElem?_map, hitem] at helement
      obtain rfl := Option.some.inj helement
      exact hitems item (List.mem_of_getElem? hitem)

/-- The properties that an object has of its own. -/
theorem mem_own_iff {members : Json.Members} {key : String} {seen : Value} :
    (key, seen) ∈ (ofMembers members).filter (fun entry => entry.1 ≠ prototypeKey) ↔
      key ≠ prototypeKey ∧ ∃ value, (key, value) ∈ members ∧ seen = .ofJson value := by
  simp only [ofMembers_eq, List.mem_filter, List.mem_map, Prod.mk.injEq, decide_eq_true_eq]
  constructor
  · rintro ⟨⟨⟨k, value⟩, hmember, rfl, rfl⟩, hkey⟩
    exact ⟨hkey, value, hmember, rfl⟩
  · rintro ⟨hkey, value, hmember, rfl⟩
    exact ⟨⟨(key, value), hmember, rfl, rfl⟩, hkey⟩

theorem eq_of_mem_of_nodup {members : Json.Members} (hkeys : (members.map Prod.fst).Nodup)
    {key : String} {value value' : Json.Value} (h : (key, value) ∈ members)
    (h' : (key, value') ∈ members) : value = value' := by
  have hpair := List.inj_on_of_nodup_map hkeys h h' rfl
  exact (Prod.mk.inj hpair).2

theorem sameContent_object_iff {members : Json.Members} (hkeys : (members.map Prod.fst).Nodup) :
    SameContent (.object members) (.ofJson (.object members)) ↔
      prototypeKey ∉ members.map Prod.fst ∧
        ∀ member ∈ members, SameContent member.2 (.ofJson member.2) := by
  rw [Value.ofJson, Value.ofEntries]
  constructor
  · rintro (_ | _ | _ | _ | _ | ⟨hsame, hvalues⟩)
    have hproto : prototypeKey ∉ members.map Prod.fst := by
      intro hmem
      obtain ⟨⟨key, seen⟩, hown, hkey⟩ := List.mem_map.mp ((hsame prototypeKey).mpr hmem)
      exact (mem_own_iff.mp hown).1 hkey
    refine ⟨hproto, ?_⟩
    rintro ⟨key, value⟩ hmember
    have hne : key ≠ prototypeKey := by
      rintro rfl
      exact hproto (List.mem_map_of_mem hmember)
    exact hvalues key value _ hmember (mem_own_iff.mpr ⟨hne, value, hmember, rfl⟩)
  · rintro ⟨hproto, hmembers⟩
    apply SameContent.object
    · intro key
      constructor
      · intro hkey
        obtain ⟨⟨k, seen⟩, hown, rfl⟩ := List.mem_map.mp hkey
        obtain ⟨-, value, hmember, -⟩ := mem_own_iff.mp hown
        exact List.mem_map_of_mem hmember
      · intro hkey
        obtain ⟨⟨k, value⟩, hmember, rfl⟩ := List.mem_map.mp hkey
        have hne : k ≠ prototypeKey := fun h => hproto (h ▸ hkey)
        exact List.mem_map_of_mem (mem_own_iff.mpr ⟨hne, value, hmember, rfl⟩)
    · intro key value seen hmember hown
      obtain ⟨-, value', hmember', rfl⟩ := mem_own_iff.mp hown
      obtain rfl := eq_of_mem_of_nodup hkeys hmember hmember'
      exact hmembers _ hmember

/-- **A script sees a value in full exactly if no object in it has a member that sets the
    prototype.** -/
theorem sameContent_ofJson_iff {v : Json.Value} (hv : v.Normal) :
    SameContent v (.ofJson v) ↔ prototypeKey ∉ v.keys := by
  induction hv with
  | null => simp [Value.ofJson, Json.Value.keys, SameContent.null]
  | bool value => simp [Value.ofJson, Json.Value.keys, SameContent.bool]
  | @number n _ => simp [Value.ofJson, Json.Value.keys, SameContent.number]
  | string text => simp [Value.ofJson, Json.Value.keys, SameContent.string]
  | @array items _ ih =>
    rw [sameContent_array_iff, Json.Value.keys, Json.Value.mem_keysOfItems]
    push Not
    exact forall₂_congr ih
  | @object members hkeys _ ih =>
    rw [sameContent_object_iff hkeys, Json.Value.keys, Json.Value.mem_keysOfMembers, not_or]
    push Not
    exact and_congr_right fun _ => forall₂_congr ih

/-- **What a script makes of the literal of a value.**  Every value with finite numbers has a
    literal, which is evaluated to the value but for the members of objects that are taken for
    their prototype.  So all keys and values are there, at every depth, exactly if no object
    has a member called `__proto__`. -/
theorem eval?_encoded {v : Json.Value} (hv : v.Normal) (hfinite : ∀ n ∈ v.numbers, n.Finite) :
    ∃ tree, ofValue v = .ok tree ∧ eval? tree = some (.ofJson v)
      ∧ (SameContent v (.ofJson v) ↔ "__proto__" ∉ v.keys) := by
  obtain ⟨tree, htree, -⟩ := exists_literalTree hv hfinite
  exact ⟨tree, htree, eval?_ofValue hv tree htree, sameContent_ofJson_iff hv⟩

namespace Sample

def zero : Json.Number := ⟨true, ['0'], none, none⟩

/-- An object with a number that has nothing but its sign, and an object inside. -/
def value : Json.Value :=
  .object [("a", .array [.number zero, .null]), ("b", .object [("c", .string "s")])]

theorem normal_zero : zero.Normal := ⟨.inl rfl, nofun, nofun⟩

theorem normal : value.Normal := by
  have hitems : ∀ item ∈ [Json.Value.number zero, .null], item.Normal :=
    List.forall_mem_cons.mpr ⟨.number normal_zero, List.forall_mem_singleton.mpr .null⟩
  have hinner : (Json.Value.object [("c", .string "s")]).Normal :=
    .object (by decide) (List.forall_mem_singleton.mpr (.string "s"))
  exact .object (by decide)
    (List.forall_mem_cons.mpr ⟨.array hitems, List.forall_mem_singleton.mpr hinner⟩)

theorem finite : ∀ n ∈ value.numbers, n.Finite := by
  intro n hn
  obtain rfl : n = zero := by
    simpa [value, Json.Value.numbers, Json.Value.numbersOfItems, Json.Value.numbersOfMembers]
      using hn
  exact (Json.Number.inRange_iff normal_zero).mp (by decide)

end Sample

theorem eval?_encoded_sample :
    Sample.value.Normal ∧ (∀ n ∈ Sample.value.numbers, n.Finite) ∧
    ∃ tree seen, ofValue Sample.value = .ok tree ∧ eval? tree = some seen
      ∧ seen = .object [("a", .array [.number true "0", .null]),
          ("b", .object [("c", .string "s")] none)] none
      ∧ SameContent Sample.value seen := by
  obtain ⟨tree, htree, heval, hsame⟩ := eval?_encoded Sample.normal Sample.finite
  exact ⟨Sample.normal, Sample.finite, tree, _, htree, heval, by rfl, hsame.mpr (by decide)⟩

namespace Lost

def value : Json.Value := .object [("__proto__", .object [("admin", .bool true)])]

def tree : Node :=
  .synthesize .objectLiteralExpression
    [property "__proto__" (.synthesize .objectLiteralExpression
      [property "admin" (leaf .trueKeyword)])]

def seen : Value := .object [] (some (.object [("admin", .bool true)] none))

theorem normal : value.Normal := by
  have hinner : (Json.Value.object [("admin", .bool true)]).Normal :=
    .object (by decide) (List.forall_mem_singleton.mpr (.bool true))
  exact .object (by decide) (List.forall_mem_singleton.mpr hinner)

end Lost

/-- A member is lost: the script sees an object without properties of its own, which takes
    from its prototype what the member held. -/
theorem prototype_member_lost :
    Lost.value.Normal ∧ (∀ n ∈ Lost.value.numbers, n.Finite) ∧
    ofValue Lost.value = .ok Lost.tree ∧ eval? Lost.tree = some Lost.seen ∧
    ¬ SameContent Lost.value Lost.seen := by
  refine ⟨Lost.normal, ?_, rfl, rfl, ?_⟩
  · intro n hn
    simp [Lost.value, Json.Value.numbers, Json.Value.numbersOfMembers] at hn
  · rintro (_ | _ | _ | _ | _ | ⟨hkeys, -⟩)
    have hkey := (hkeys "__proto__").mpr (by simp)
    exact List.not_mem_nil hkey

/-- Under a computed name the member would be there. -/
example :
    eval? (.synthesize .objectLiteralExpression
      [.synthesize .propertyAssignment
        [.synthesize .computedPropertyName [string "__proto__"],
          .synthesize .objectLiteralExpression [property "admin" (leaf .trueKeyword)]]]) =
      some (.object [("__proto__", .object [("admin", .bool true)] none)] none) := by
  rfl

end Script

end Transclude
