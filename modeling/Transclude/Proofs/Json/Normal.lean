/-
  Transclude/Proofs/Json/Normal.lean
  ==================================
  **Values in normal form.**

  A value is in normal form when its numbers are and when no object in it has a key
  twice.  Setting the members of an object key by key sees to the second.
-/
import Transclude.Json.Value
import Transclude.Proofs.Json.Number

namespace Transclude.Json

/-- The values that can be read. -/
inductive Value.Normal : Value → Prop where
  | null : Normal .null
  | bool (value : Bool) : Normal (.bool value)
  | number {n : Number} (hn : n.Normal) : Normal (.number n)
  | string (text : String) : Normal (.string text)
  | array {items : List Value} (hitems : ∀ item ∈ items, item.Normal) : Normal (.array items)
  | object {members : Members} (hkeys : (members.map Prod.fst).Nodup)
      (hmembers : ∀ entry ∈ members, entry.2.Normal) : Normal (.object members)

/-! ### Setting the members of an object -/

namespace Members

theorem keys_insert_of_mem {members : Members} {key : String} (h : key ∈ members.map Prod.fst)
    (value : Value) : (members.insert key value).map Prod.fst = members.map Prod.fst := by
  induction members with
  | nil => exact absurd h List.not_mem_nil
  | cons entry members ih =>
    obtain ⟨k, v⟩ := entry
    rw [insert]
    by_cases hk : k = key
    · rw [if_pos hk]
      rfl
    · rw [if_neg hk, List.map_cons, List.map_cons]
      rcases List.mem_cons.mp h with heq | h
      · exact absurd heq.symm hk
      · rw [ih h]

theorem insert_of_not_mem {members : Members} {key : String} (h : key ∉ members.map Prod.fst)
    (value : Value) : members.insert key value = members ++ [(key, value)] := by
  induction members with
  | nil => rfl
  | cons entry members ih =>
    obtain ⟨k, v⟩ := entry
    rw [List.map_cons, List.mem_cons, not_or] at h
    rw [insert, if_neg (Ne.symm h.1), ih h.2, List.cons_append]

theorem nodup_insert {members : Members} (h : (members.map Prod.fst).Nodup) (key : String)
    (value : Value) : ((members.insert key value).map Prod.fst).Nodup := by
  by_cases hkey : key ∈ members.map Prod.fst
  · rw [keys_insert_of_mem hkey]
    exact h
  · rw [insert_of_not_mem hkey, List.map_append, List.nodup_append]
    refine ⟨h, List.pairwise_singleton _ _, ?_⟩
    intro k hk k' hk' heq
    rw [List.map_singleton, List.mem_singleton] at hk'
    rw [heq, hk'] at hk
    exact hkey hk

theorem mem_insert {members : Members} {key : String} {value : Value} {entry : String × Value}
    (h : entry ∈ members.insert key value) : entry ∈ members ∨ entry.2 = value := by
  induction members with
  | nil =>
    rw [insert] at h
    rw [List.mem_singleton.mp h]
    exact .inr rfl
  | cons first members ih =>
    rw [insert] at h
    split at h
    · rcases List.mem_cons.mp h with rfl | h
      · exact .inr rfl
      · exact .inl (List.mem_cons_of_mem _ h)
    · rcases List.mem_cons.mp h with rfl | h
      · exact .inl List.mem_cons_self
      · exact (ih h).imp_left (List.mem_cons_of_mem _)

theorem nodup_ofList (entries : List (String × Value)) :
    ((ofList entries).map Prod.fst).Nodup := by
  rw [ofList]
  refine List.foldlRecOn (motive := fun members : Members => (members.map Prod.fst).Nodup) entries _
    List.nodup_nil ?_
  intro members hmembers entry _
  exact nodup_insert hmembers entry.1 entry.2

theorem forall_ofList {p : Value → Prop} {entries : List (String × Value)}
    (h : ∀ entry ∈ entries, p entry.2) : ∀ entry ∈ ofList entries, p entry.2 := by
  rw [ofList]
  refine List.foldlRecOn (motive := fun members : Members => ∀ entry ∈ members, p entry.2) entries _
    (fun _ hmem => absurd hmem List.not_mem_nil) ?_
  intro members hmembers entry hentry entry' hmem
  rcases mem_insert hmem with hmem | heq
  · exact hmembers entry' hmem
  · rw [heq]
    exact h entry hentry

theorem ofList_of_nodup {entries : List (String × Value)} (h : (entries.map Prod.fst).Nodup) :
    ofList entries = entries := by
  -- The members set so far and the entries still to come make up the whole list.
  have hgo : ∀ (entries : List (String × Value)) (members : Members),
      ((members ++ entries).map Prod.fst).Nodup →
      entries.foldl (fun members entry => Members.insert members entry.1 entry.2) members =
        members ++ entries := by
    intro entries
    induction entries with
    | nil =>
      intro members _
      rw [List.foldl_nil, List.append_nil]
    | cons entry entries ih =>
      intro members hnodup
      have hkey : entry.1 ∉ members.map Prod.fst := by
        intro hmem
        rw [List.map_append, List.map_cons, List.nodup_append] at hnodup
        exact hnodup.2.2 _ hmem _ List.mem_cons_self rfl
      rw [List.foldl_cons, insert_of_not_mem hkey, ih, List.append_assoc]
      · rfl
      · rw [List.append_assoc]
        exact hnodup
  exact hgo entries [] h

end Members

end Transclude.Json
