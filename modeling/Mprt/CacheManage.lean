import Mathlib.Data.List.AList

/-!
# The pool of cached items

`cache_manage` hands out one item per url id: the one it has registered for the
id, or a free one, or a new one. Items are shared pointers, which may be null; a
lookup of an id that is not registered yields a null one. The registered items
are a map from url ids, the free ones a queue.
-/

universe u
variable {α : Type u}

/-- `cache_manage`, with pointers to items as options. -/
structure CacheManage (α : Type u) where
  maxCacheCount : Int
  usageCacheIndex : AList (fun _ : Int => Option α)
  freeCacheList : List (Option α)

namespace CacheManage

def make (maxCacheCount : Int) : CacheManage α := ⟨maxCacheCount, ∅, []⟩

def find (manage : CacheManage α) (urlId : Int) : Option (Option α) :=
  manage.usageCacheIndex.lookup urlId

def isInCache (manage : CacheManage α) (urlId : Int) : Bool := (manage.find urlId).isSome

def erase (manage : CacheManage α) (urlId : Int) : CacheManage α :=
  { manage with usageCacheIndex := manage.usageCacheIndex.erase urlId }

/-- `_usage_cache_index[url_id] = item`. -/
def register (manage : CacheManage α) (urlId : Int) (item : Option α) : CacheManage α :=
  { manage with usageCacheIndex := manage.usageCacheIndex.insert urlId item }

/-- `get_from_cache(url_id)`. -/
def getFromCache (manage : CacheManage α) (urlId : Int) : Option α :=
  (manage.find urlId).getD none

/-- `get_cache_helper`: the first free item, or else a new one. The flag tells
whether the new one was taken. -/
def getCacheHelper (manage : CacheManage α) (new : Option α) :
    Option α × Bool × CacheManage α :=
  match manage.freeCacheList with
  | [] => (new, true, manage)
  | item :: rest => (item, false, { manage with freeCacheList := rest })

/-- `get_from_cache(f, url_id)`: a null item counts as none. -/
def getFromCacheOr (manage : CacheManage α) (new : Option α) (urlId : Int) :
    Option α × Bool × CacheManage α :=
  match manage.find urlId with
  | some (some item) => (some item, false, manage)
  | _ =>
    let helped := manage.getCacheHelper new
    (helped.1, helped.2.1, helped.2.2.register urlId helped.1)

/-- `put_cache_back`: the item to be finished, if the id has one registered, and
the pool afterwards. -/
def putCacheBack (manage : CacheManage α) (urlId : Int) : Option (Option α) × CacheManage α :=
  match manage.find urlId with
  | none => (none, manage)
  | some item =>
    let erased := manage.erase urlId
    (some item,
      if (erased.freeCacheList.length : Int) < erased.maxCacheCount then
        { erased with freeCacheList := erased.freeCacheList ++ [item] }
      else erased)

def reset (manage : CacheManage α) : CacheManage α :=
  { manage with usageCacheIndex := ∅, freeCacheList := [] }

/-- No registered and no free item is null. -/
def NoNull (manage : CacheManage α) : Prop :=
  (∀ urlId, manage.find urlId ≠ some none) ∧ ∀ item ∈ manage.freeCacheList, item ≠ none

/-- A new pool has no entries, and so none without a buffer. -/
theorem make_noNull (maxCacheCount : Int) : (make maxCacheCount : CacheManage α).NoNull := by
  constructor
  · intro urlId
    simp [find, make]
  · intro item member
    cases member

/-- A pool that is emptied has none either. -/
theorem reset_noNull (manage : CacheManage α) : manage.reset.NoNull :=
  make_noNull manage.maxCacheCount

/-- An erased id is not registered, the others stay. -/
theorem find_erase (manage : CacheManage α) (urlId other : Int) :
    (manage.erase urlId).find other = if other = urlId then none else manage.find other := by
  split
  · rename_i same
    rw [same]
    exact AList.lookup_erase urlId manage.usageCacheIndex
  · rename_i different
    exact AList.lookup_erase_ne different

/-- A registered id has its item, the others stay. -/
theorem find_register (manage : CacheManage α) (urlId other : Int) (item : Option α) :
    (manage.register urlId item).find other =
      if other = urlId then some item else manage.find other := by
  split
  · rename_i same
    rw [same]
    exact AList.lookup_insert manage.usageCacheIndex
  · rename_i different
    exact AList.lookup_insert_ne different

/-- An entry that is taken out leaves the others as they are. -/
theorem erase_noNull {manage : CacheManage α} (filled : manage.NoNull) (urlId : Int) :
    (manage.erase urlId).NoNull := by
  refine ⟨?_, filled.2⟩
  intro other
  rw [find_erase]
  split
  · simp
  · exact filled.1 other

/-- An entry is made with the buffer that is given for it, which is there. -/
theorem register_noNull {manage : CacheManage α} (filled : manage.NoNull) (urlId : Int)
    {item : Option α} (there : item ≠ none) : (manage.register urlId item).NoNull := by
  refine ⟨?_, filled.2⟩
  intro other
  rw [find_register]
  split
  · simp [there]
  · exact filled.1 other

/-- What `get_from_cache(f, url_id)` does: the item that is registered, or else a
new one, or else the first free one. -/
theorem getFromCacheOr_cases {manage : CacheManage α} (filled : manage.NoNull) (new : Option α)
    (urlId : Int) :
    (∃ item, manage.find urlId = some (some item) ∧
        manage.getFromCacheOr new urlId = (some item, false, manage)) ∨
      (manage.find urlId = none ∧ manage.freeCacheList = [] ∧
        manage.getFromCacheOr new urlId = (new, true, manage.register urlId new)) ∨
      ∃ item rest, manage.find urlId = none ∧ manage.freeCacheList = item :: rest ∧
        manage.getFromCacheOr new urlId =
          (item, false, { manage with freeCacheList := rest }.register urlId item) := by
  cases found : manage.find urlId with
  | some registered =>
    cases registered with
    | none => exact absurd found (filled.1 urlId)
    | some item => exact .inl ⟨item, rfl, by simp only [getFromCacheOr, found]⟩
  | none =>
    cases free : manage.freeCacheList with
    | nil => exact .inr (.inl ⟨rfl, rfl, by simp only [getFromCacheOr, found, getCacheHelper, free]⟩)
    | cons item rest =>
      exact .inr (.inr ⟨item, rest, rfl, rfl, by
        simp only [getFromCacheOr, found, getCacheHelper, free]⟩)

/-- What `put_cache_back` does: nothing, or the item is unregistered, and free
when there is room. -/
theorem putCacheBack_cases (manage : CacheManage α) (urlId : Int) :
    (manage.find urlId = none ∧ manage.putCacheBack urlId = (none, manage)) ∨
      ∃ item, manage.find urlId = some item ∧
        ((manage.freeCacheList.length : Int) < manage.maxCacheCount ∧
            manage.putCacheBack urlId = (some item,
              { manage.erase urlId with freeCacheList := manage.freeCacheList ++ [item] }) ∨
          manage.putCacheBack urlId = (some item, manage.erase urlId)) := by
  cases found : manage.find urlId with
  | none => exact .inl ⟨rfl, by simp only [putCacheBack, found]⟩
  | some item =>
    refine .inr ⟨item, rfl, ?_⟩
    by_cases room : (manage.freeCacheList.length : Int) < manage.maxCacheCount
    · exact .inl ⟨room, by simp [putCacheBack, found, erase, room]⟩
    · exact .inr (by simp [putCacheBack, found, erase, room])

/-- What is handed out is not null when new items are not. -/
theorem getFromCacheOr_noNull {manage : CacheManage α} (filled : manage.NoNull) (new : α)
    (urlId : Int) :
    (manage.getFromCacheOr (some new) urlId).1 ≠ none ∧
      (manage.getFromCacheOr (some new) urlId).2.2.NoNull := by
  rcases getFromCacheOr_cases filled (some new) urlId with
    ⟨item, _, got⟩ | ⟨_, _, got⟩ | ⟨item, rest, _, free, got⟩
  · rw [got]
    exact ⟨Option.some_ne_none item, filled⟩
  · rw [got]
    exact ⟨Option.some_ne_none new, register_noNull filled urlId (Option.some_ne_none new)⟩
  · rw [got]
    have listed := filled.2
    rw [free] at listed
    have there := listed item List.mem_cons_self
    have remaining : ({ manage with freeCacheList := rest } : CacheManage α).NoNull :=
      ⟨filled.1, fun other member => listed other (List.mem_cons_of_mem item member)⟩
    exact ⟨there, register_noNull remaining urlId there⟩

/-- Only a registered item becomes free. -/
theorem putCacheBack_noNull {manage : CacheManage α} (filled : manage.NoNull) (urlId : Int) :
    (manage.putCacheBack urlId).2.NoNull := by
  have erased := erase_noNull filled urlId
  rcases manage.putCacheBack_cases urlId with ⟨_, same⟩ | ⟨item, found, ⟨_, put⟩ | put⟩
  · exact same ▸ filled
  · rw [put]
    refine ⟨erased.1, ?_⟩
    intro other member
    rcases List.mem_append.mp member with free | last
    · exact erased.2 other free
    · rw [List.mem_singleton.mp last]
      rintro rfl
      exact filled.1 urlId found
  · exact put ▸ erased

end CacheManage
