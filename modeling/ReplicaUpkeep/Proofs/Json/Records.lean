import ReplicaUpkeep.Json.Shape

/-!
# Records that are taken apart again

A record that is written with distinct keys gives its values back under any of them.  With it come
the shapes that a value is written in: words, names, texts, lists and what may be missing.
-/

namespace ReplicaUpkeep.Json

/-! ## Records -/

theorem member?_map (key : String) (members : List (String × Json)) :
    member? key (members.map fun m => (some m.1, m.2)) =
      List.lookup key members := by
  induction members with
  | nil => rfl
  | cons m rest ih =>
    rw [List.map_cons, member?, ih, List.lookup_cons]
    by_cases hKey : m.1 = key
    · subst hKey
      simp
    · have hOther : (key == m.1) = false := beq_false_of_ne fun h => hKey h.symm
      simp [hKey, hOther]

/-- A key occurs at most once where keys are distinct. -/
theorem keyCount_map_le_one (key : String) {members : List (String × Json)}
    (h : (members.map Prod.fst).Nodup) :
    keyCount key (members.map fun m => (some m.1, m.2)) ≤ 1 := by
  have hCount : keyCount key (members.map fun m => (some m.1, m.2)) =
      (members.map Prod.fst).count key := by
    rw [keyCount, ← List.countP_eq_length_filter, List.countP_map, List.count, List.countP_map]
    refine List.countP_congr fun m _ => ?_
    simp
  rw [hCount]
  exact List.nodup_iff_count.1 h key

/-- A record is read field by field, whatever fields are asked for. -/
theorem fields?_record (keys : List String) {members : List (String × Json)}
    (h : (members.map Prod.fst).Nodup) :
    (record members).fields? keys = some (keys.map fun k => List.lookup k members) := by
  have hNamed : (members.map fun m => ((some m.1, m.2) : Option String × Json)).all
      (fun m => m.1.isSome) = true := by
    simp
  have hOnce : keys.all (fun k =>
      keyCount k (members.map fun m => (some m.1, m.2)) ≤ 1) = true :=
    List.all_eq_true.2 fun k _ => decide_eq_true (keyCount_map_le_one k h)
  rw [record, fields?, if_pos ⟨hNamed, hOnce⟩]
  simp only [member?_map]

/-! ## The shapes of values -/

@[simp]
theorem toText?_str (s : String) : (str s).toText? = some s :=
  rfl

@[simp]
theorem toName?_str (s : String) : (str s).toName? = some s :=
  rfl

@[simp]
theorem toBoolean?_boolean (b : Bool) : (boolean b).toBoolean? = some b :=
  rfl

@[simp]
theorem toWord?_word (n : UInt64) : (word n).toWord? = some n := by
  have hFits : n.toNat < Text.wordLimit := n.toNat_lt
  simp [toWord?, word, nat, toNatBelow?, hFits]

/-- What may be missing is read as it is where it is not `null`. -/
theorem optional_of_ne_null {α : Type} {item? : Json → Option α} {v : Json} {a : α}
    (h : item? v = some a) (hNull : v ≠ .null) : optional item? (some v) = some (some a) := by
  have hItem : optional item? (some v) = (item? v).map some := by
    cases v with
    | null => exact absurd rfl hNull
    | _ => rfl
  rw [hItem, h, Option.map_some]

@[simp]
theorem optional_none {α : Type} (item? : Json → Option α) : optional item? none = some none :=
  rfl

/-- A list is read back where every element is. -/
theorem toList?_array {α : Type} {write : α → Json} {item? : Json → Option α}
    (h : ∀ a, item? (write a) = some a) (l : List α) :
    toList? item? (.array (l.map write)) = some l := by
  rw [toList?]
  induction l with
  | nil => rfl
  | cons a l ih => simp [h, ih]

end ReplicaUpkeep.Json
