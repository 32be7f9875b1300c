import Mathlib.Data.List.Nodup

/-!
# JSON values

A number keeps what distinguishes it in both languages that read it: an integer literal is its
value, a literal with a fraction or an exponent is its text. An object is the list of its members
in the order of the text; a key may occur several times.
-/

namespace TxPlatform

inductive Json where
  | null
  | bool (value : Bool)
  | int (value : Int)
  | real (text : String)
  | str (text : String)
  | arr (items : List Json)
  | obj (members : List (String × Json))

namespace Json

/-- `data[key]`: of several members with one key the last counts. -/
def member (members : List (String × Json)) (key : String) : Option Json := members.reverse.lookup key

/-- The members whose value is there: `{key: value for key, value in data.items() if value is not
None}`. -/
def present (members : List (String × Option Json)) : List (String × Json) :=
  members.filterMap fun (key, value) => value.map fun value => (key, value)

theorem mem_present {members : List (String × Option Json)} {key : String} {value : Json} :
    (key, value) ∈ present members ↔ (key, some value) ∈ members := by
  simp [present]

theorem lookup_present {members : List (String × Option Json)} (hnodup : (members.map (·.1)).Nodup)
    {key : String} {value : Option Json} (hmem : (key, value) ∈ members) :
    (present members).lookup key = value := by
  induction members with
  | nil => cases hmem
  | cons first members ih =>
    obtain ⟨name, found⟩ := first
    rw [List.map_cons, List.nodup_cons] at hnodup
    have hfirst : present ((name, found) :: members) =
        (found.map fun found => (name, found)).toList ++ present members := by
      cases found <;> simp [present]
    rw [hfirst, List.lookup_append]
    rcases List.mem_cons.1 hmem with heq | hrest
    · cases heq
      have hrest : (present members).lookup key = none := by
        rw [List.lookup_eq_none_iff]
        intro entry hentry
        have hkey : entry.1 ∈ members.map (·.1) := List.mem_map_of_mem (mem_present.1 hentry)
        rw [bne_iff_ne]
        rintro rfl
        exact hnodup.1 hkey
      cases value <;> simp [hrest]
    · have hne : (key == name) = false := by
        rw [beq_eq_false_iff_ne]
        intro he
        exact hnodup.1 (List.mem_map.2 ⟨(key, value), hrest, he⟩)
      rw [ih hnodup.2 hrest]
      cases found <;> simp [List.lookup_cons, hne]

/-- Reading a member back from an object that was written from keyed values. -/
theorem member_present {members : List (String × Option Json)} (hnodup : (members.map (·.1)).Nodup)
    {key : String} {value : Option Json} (hmem : (key, value) ∈ members) :
    member (present members) key = value := by
  have hreverse : (present members).reverse = present members.reverse := by simp [present]
  rw [member, hreverse]
  refine lookup_present ?_ (List.mem_reverse.2 hmem)
  rw [List.map_reverse]
  exact List.nodup_reverse.2 hnodup

end Json

end TxPlatform
