import Mathlib
import FieldHint.Json.Basic

/-!
# JSON — the members of an object

The value of a key is the last one given for it, so the order of the members counts where a key
occurs twice, and nowhere else:

* `member?_perm` — members with distinct keys may stand in any order;
* `member?_replace` — of a value, only what is looked at counts.

`Rearranged` carries this through a whole value: its objects may list their members in any order.
-/

namespace FieldHint.Json

variable {members members' : List (Text × Json)} {key : Text} {v w : Json}

/-- The text of a value that is a string. -/
def asString? : Json → Option Text
  | string t => some t
  | _ => none

/-- Behind the members that come first, the others have the last word. -/
theorem member?_append (before after : List (Text × Json)) (key : Text) :
    member? (before ++ after) key = (member? after key).or (member? before key) := by
  rw [member?, List.reverse_append, List.find?_append, Option.map_or]
  rfl

theorem member?_cons (k : Text) (v : Json) (members : List (Text × Json)) (key : Text) :
    member? ((k, v) :: members) key =
      (member? members key).or (if k = key then some v else none) := by
  rw [← List.singleton_append, member?_append]
  by_cases hKey : k = key <;> simp [member?, hKey]

theorem mem_of_member? (h : member? members key = some v) : (key, v) ∈ members := by
  obtain ⟨⟨k, v⟩, hFind, rfl⟩ := Option.map_eq_some_iff.mp h
  obtain rfl : k = key := by simpa using List.find?_some hFind
  exact List.mem_reverse.mp (List.mem_of_find?_eq_some hFind)

theorem sizeOf_member? (h : member? members key = some v) : sizeOf v < sizeOf (object members) := by
  have hMember := List.sizeOf_lt_of_mem (mem_of_member? h)
  rw [Prod.mk.sizeOf_spec] at hMember
  rw [object.sizeOf_spec]
  omega

theorem member?_eq_none_of_not_mem (h : key ∉ members.map (·.1)) : member? members key = none := by
  rw [Option.eq_none_iff_forall_ne_some]
  intro v hv
  exact h (List.mem_map_of_mem (mem_of_member? hv))

/-- With distinct keys, the value of a key is the one that is given for it. -/
theorem member?_eq_some_iff (hKeys : (members.map (·.1)).Nodup) :
    member? members key = some v ↔ (key, v) ∈ members := by
  refine ⟨mem_of_member?, fun h => ?_⟩
  induction members with
  | nil => simp at h
  | cons entry members ih =>
    obtain ⟨k, u⟩ := entry
    rw [List.map_cons, List.nodup_cons] at hKeys
    rw [member?_cons]
    rcases List.mem_cons.mp h with hHead | hTail
    · obtain ⟨rfl, rfl⟩ := Prod.mk.inj hHead
      rw [member?_eq_none_of_not_mem hKeys.1, if_pos rfl, Option.none_or]
    · rw [ih hKeys.2 hTail, Option.some_or]

theorem member?_perm (hKeys : (members.map (·.1)).Nodup) (hPerm : members.Perm members')
    (key : Text) : member? members key = member? members' key := by
  have hKeys' : (members'.map (·.1)).Nodup := (hPerm.map _).nodup_iff.mp hKeys
  ext v
  rw [member?_eq_some_iff hKeys, member?_eq_some_iff hKeys', hPerm.mem_iff]

/-- If the value of one member is replaced by another that looks the same, then so do the values of
all keys. -/
theorem member?_replace {β : Type} {f : Json → β} (h : f v = f w)
    (before after : List (Text × Json)) (k key : Text) :
    (member? (before ++ (k, v) :: after) key).map f =
      (member? (before ++ (k, w) :: after) key).map f := by
  simp only [member?_append, member?_cons, Option.map_or]
  by_cases hKey : k = key
  · simp only [hKey, if_true, Option.map_some, h]
  · simp only [hKey, if_false]

/-- The values are the same but for the order in which objects list their members. Only members
with distinct keys have no order. -/
inductive Rearranged : Json → Json → Prop
  | refl (v : Json) : Rearranged v v
  | trans {u v w : Json} : Rearranged u v → Rearranged v w → Rearranged u w
  | members {members members' : List (Text × Json)} :
    (members.map (·.1)).Nodup → members.Perm members' →
      Rearranged (object members) (object members')
  | item (before after : List Json) {v w : Json} : Rearranged v w →
    Rearranged (array (before ++ v :: after)) (array (before ++ w :: after))
  | member (before after : List (Text × Json)) (key : Text) {v w : Json} : Rearranged v w →
    Rearranged (object (before ++ (key, v) :: after)) (object (before ++ (key, w) :: after))

end FieldHint.Json
