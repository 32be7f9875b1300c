import TxPlatform.Lib.Json

/-!
# Activities (System.Diagnostics)

What a process records of an operation: tags, events, a status and two times. `setTag` overwrites a
tag that is there; an event is added at the end. Reading a tag back is all that the checks of a trace
do with it, so each operation comes with what it does to `tag` and to `events`.
-/

namespace TxPlatform

structure ActivityEvent where
  name : String
  time : Int
  tags : List (String × Json)

inductive ActivityKind where
  | internal
  | server
  | client
  deriving DecidableEq

inductive ActivityStatusCode where
  | unset
  | ok
  | error
  deriving DecidableEq

structure Activity where
  id : String
  parentId : String
  name : String
  kind : ActivityKind
  startTime : Int
  stopTime : Int
  tags : List (String × Json) := []
  events : List ActivityEvent := []
  status : ActivityStatusCode := .unset

namespace Activity

def setTag (activity : Activity) (key : String) (value : Json) : Activity :=
  { activity with
    tags := if key ∈ activity.tags.map (·.1) then
        activity.tags.map fun tag => if tag.1 = key then (key, value) else tag
      else activity.tags ++ [(key, value)] }

def addEvent (activity : Activity) (name : String) (time : Int) (tags : List (String × Json)) : Activity :=
  { activity with events := activity.events ++ [⟨name, time, tags⟩] }

def setStatus (activity : Activity) (status : ActivityStatusCode) : Activity := { activity with status }

def stop (activity : Activity) (time : Int) : Activity := { activity with stopTime := time }

/-- `GetTagItem`. -/
def tag (activity : Activity) (key : String) : Option Json := activity.tags.lookup key

def eventsNamed (activity : Activity) (name : String) : List ActivityEvent :=
  activity.events.filter (·.name = name)

section Laws
variable (activity : Activity) (key key' name name' : String) (value : Json) (time : Int)
  (tags : List (String × Json)) (status : ActivityStatusCode)

theorem lookup_overwrite (members : List (String × Json)) :
    (members.map fun member => if member.1 = key then (key, value) else member).lookup key' =
      if key' = key then (members.lookup key).map fun _ => value else members.lookup key' := by
  induction members with
  | nil => simp
  | cons member members ih =>
    obtain ⟨first, found⟩ := member
    by_cases hfirst : first = key
    · subst hfirst
      by_cases hkey : key' = first
      · simp [hkey]
      · have hne : (key' == first) = false := by simpa using hkey
        simp [List.lookup_cons, hne, hkey, ih]
    · have hne : (key == first) = false := by simpa using Ne.symm hfirst
      by_cases hkey : key' = key
      · rw [if_pos hkey] at ih
        subst hkey
        simp [List.lookup_cons, hne, hfirst, ih]
      · simp [List.lookup_cons, hfirst, hkey, ih]

/-- The tag that was set is read back; every other tag is as before. -/
@[simp] theorem tag_setTag : (activity.setTag key value).tag key' =
    if key' = key then some value else activity.tag key' := by
  unfold setTag tag
  split
  · rename_i hmem
    obtain ⟨entry, hentry, hkey⟩ := List.mem_map.1 hmem
    have hsome : activity.tags.lookup key ≠ none := by
      rw [Ne, List.lookup_eq_none_iff]
      intro hall
      simpa [hkey] using hall entry hentry
    obtain ⟨old, hold⟩ := Option.ne_none_iff_exists'.1 hsome
    rw [lookup_overwrite, hold, Option.map_some]
  · rename_i hnew
    rw [List.lookup_append]
    by_cases hkey : key' = key
    · subst hkey
      have hnone : activity.tags.lookup key' = none := by
        rw [List.lookup_eq_none_iff]
        rintro ⟨other, found⟩ hfound
        have hother : other ∈ activity.tags.map (·.1) := List.mem_map.2 ⟨_, hfound, rfl⟩
        have hne : key' ≠ other := fun h => hnew (h ▸ hother)
        simpa using hne
      simp [hnone]
    · have hne : (key' == key) = false := by simpa using hkey
      simp [List.lookup_cons, hne, hkey]

@[simp] theorem tag_addEvent : (activity.addEvent name time tags).tag key = activity.tag key := rfl
@[simp] theorem tag_setStatus : (activity.setStatus status).tag key = activity.tag key := rfl
@[simp] theorem tag_stop : (activity.stop time).tag key = activity.tag key := rfl

@[simp] theorem events_setTag : (activity.setTag key value).events = activity.events := rfl
@[simp] theorem events_setStatus : (activity.setStatus status).events = activity.events := rfl
@[simp] theorem events_stop : (activity.stop time).events = activity.events := rfl

@[simp] theorem eventsNamed_setTag :
    (activity.setTag key value).eventsNamed name = activity.eventsNamed name := rfl
@[simp] theorem eventsNamed_setStatus :
    (activity.setStatus status).eventsNamed name = activity.eventsNamed name := rfl
@[simp] theorem eventsNamed_stop : (activity.stop time).eventsNamed name = activity.eventsNamed name := rfl

@[simp] theorem eventsNamed_addEvent : (activity.addEvent name' time tags).eventsNamed name =
    activity.eventsNamed name ++ if name' = name then [⟨name', time, tags⟩] else [] := by
  simp only [eventsNamed, addEvent, List.filter_append]
  by_cases h : name' = name <;> simp [h]

@[simp] theorem status_setTag : (activity.setTag key value).status = activity.status := rfl
@[simp] theorem status_addEvent : (activity.addEvent name time tags).status = activity.status := rfl
@[simp] theorem status_setStatus : (activity.setStatus status).status = status := rfl
@[simp] theorem status_stop : (activity.stop time).status = activity.status := rfl

end Laws

/-- Two recordings of one operation: what identifies it in a trace. -/
structure SameSpan (activity other : Activity) : Prop where
  id : activity.id = other.id
  parentId : activity.parentId = other.parentId
  name : activity.name = other.name
  kind : activity.kind = other.kind
  startTime : activity.startTime = other.startTime

namespace SameSpan
variable {activity other third : Activity}

theorem refl (activity : Activity) : SameSpan activity activity := ⟨rfl, rfl, rfl, rfl, rfl⟩

theorem trans (h : SameSpan activity other) (h' : SameSpan other third) : SameSpan activity third :=
  ⟨h.id.trans h'.id, h.parentId.trans h'.parentId, h.name.trans h'.name, h.kind.trans h'.kind,
    h.startTime.trans h'.startTime⟩

theorem setTag (key : String) (value : Json) : SameSpan (activity.setTag key value) activity := ⟨rfl, rfl, rfl, rfl, rfl⟩
theorem addEvent (name : String) (time : Int) (tags : List (String × Json)) :
    SameSpan (activity.addEvent name time tags) activity := ⟨rfl, rfl, rfl, rfl, rfl⟩
theorem setStatus (status : ActivityStatusCode) : SameSpan (activity.setStatus status) activity :=
  ⟨rfl, rfl, rfl, rfl, rfl⟩
theorem stop (time : Int) : SameSpan (activity.stop time) activity := ⟨rfl, rfl, rfl, rfl, rfl⟩

end SameSpan

end Activity

end TxPlatform
