import Mprt.LabelledRuns
import Mprt.CacheManage

/-!
# Who owns a cached item

`cache_manage` moves an item between two containers: it is registered for a url
id, or it is free. Items are named by their address, and an item that the
creating function makes has an address that no item had before.

The history tells which item was handed out, that is used from then on, and which
one the finishing function has treated before it became free.
-/

namespace Mprt.CacheOwnership

/-- An item is handed out, or treated by the finishing function. -/
inductive Event where
  | used (item : Nat)
  | finished (item : Nat)
deriving DecidableEq

def Event.item : Event → Nat
  | .used item => item
  | .finished item => item

structure State where
  manage : CacheManage Nat
  allocated : Nat
  history : List Event

/-- The calls: `get_from_cache(f, url_id)`, `get_from_cache(url_id)`,
`put_cache_back(g, url_id)`, `is_in_cache(url_id)` and `reset()`. -/
inductive Action where
  | getFromCacheOr (urlId : Int)
  | getFromCache (urlId : Int)
  | putCacheBack (urlId : Int)
  | isInCache (urlId : Int)
  | reset
deriving DecidableEq

/-- What `get_from_cache(f, url_id)` would hand out; `f` makes the next item. -/
def handedOut (state : State) (urlId : Int) : Option Nat :=
  (state.manage.getFromCacheOr (some state.allocated) urlId).1

/-- The history with what was handed out, if anything was. -/
def use (history : List Event) (item : Option Nat) : List Event :=
  history ++ (item.map Event.used).toList

def step (state : State) : Action → Option State
  | .getFromCacheOr urlId =>
      let got := state.manage.getFromCacheOr (some state.allocated) urlId
      some ⟨got.2.2, if got.2.1 then state.allocated + 1 else state.allocated,
        use state.history got.1⟩
  | .getFromCache urlId =>
      some { state with history := use state.history (state.manage.getFromCache urlId) }
  | .putCacheBack urlId =>
      let put := state.manage.putCacheBack urlId
      some { state with
        manage := put.2
        history := state.history ++ (put.1.join.map Event.finished).toList }
  | .isInCache _ => some state
  | .reset => some { state with manage := state.manage.reset }

def start (maxCacheCount : Int) : State := ⟨.make maxCacheCount, 0, []⟩

/-- The last event of an item is that it was finished. -/
def FinishedSinceUse (history : List Event) (item : Nat) : Prop :=
  (history.filter (fun event => event.item = item)).getLast? = some (.finished item)

/-- An item is registered for one url id or is free once, and there are no more
free items than the pool may hold. -/
structure Exclusive (manage : CacheManage Nat) : Prop where
  noNull : manage.NoNull
  single : ∀ urlId other item, manage.find urlId = some item → manage.find other = some item →
    urlId = other
  apart : ∀ urlId item, manage.find urlId = some item → item ∉ manage.freeCacheList
  once : manage.freeCacheList.Nodup
  bounded : (manage.freeCacheList.length : Int) ≤ manage.maxCacheCount

/-- What every step keeps: owners are exclusive, every item was allocated, and
the free ones are finished. -/
structure Invariant (state : State) : Prop where
  exclusive : Exclusive state.manage
  registeredOld : ∀ urlId item, state.manage.find urlId = some (some item) → item < state.allocated
  freeOld : ∀ item, some item ∈ state.manage.freeCacheList → item < state.allocated
  finished : ∀ item, some item ∈ state.manage.freeCacheList → FinishedSinceUse state.history item

theorem start_invariant (maxCacheCount : Int) (natural : 0 ≤ maxCacheCount) :
    Invariant (start maxCacheCount) where
  exclusive := by
    refine ⟨CacheManage.make_noNull maxCacheCount, ?_, ?_, List.nodup_nil, natural⟩
    · intro urlId other item found
      simp [start, CacheManage.make, CacheManage.find] at found
    · intro urlId item _
      exact List.not_mem_nil
  registeredOld := by simp [start, CacheManage.make, CacheManage.find]
  freeOld := by simp [start, CacheManage.make]
  finished := by simp [start, CacheManage.make]

/-- The use of another item leaves an item finished. -/
theorem finished_use {history : List Event} {item : Nat} {used : Option Nat}
    (finished : FinishedSinceUse history item) (other : used ≠ some item) :
    FinishedSinceUse (use history used) item := by
  cases used with
  | none => simpa [use] using finished
  | some which =>
    have different : which ≠ item := fun same => other (congrArg some same)
    simpa [FinishedSinceUse, use, List.filter_append, Event.item, different] using finished

/-- The last event of an item that the finishing function has just treated. -/
theorem finished_now (history : List Event) (item : Nat) :
    FinishedSinceUse (history ++ [.finished item]) item := by
  simp [FinishedSinceUse, List.filter_append, Event.item]

/-- What is finished stays so when any item is finished. -/
theorem finished_append {history : List Event} {item : Nat} (other : Nat)
    (finished : FinishedSinceUse history item) :
    FinishedSinceUse (history ++ [.finished other]) item := by
  by_cases same : other = item
  · rw [same]
    exact finished_now history item
  · simpa [FinishedSinceUse, List.filter_append, Event.item, same] using finished

/-- An id without an item is given one that no id and no place in the free list has. -/
theorem register_exclusive {manage : CacheManage Nat} (exclusive : Exclusive manage) (urlId : Int)
    {item : Nat} (unregistered : ∀ other, manage.find other ≠ some (some item))
    (notFree : some item ∉ manage.freeCacheList) :
    Exclusive (manage.register urlId (some item)) := by
  constructor
  · exact CacheManage.register_noNull exclusive.noNull urlId (Option.some_ne_none item)
  · intro first second held foundFirst foundSecond
    rw [CacheManage.find_register] at foundFirst foundSecond
    split at foundFirst <;> split at foundSecond
    · rename_i here there
      exact here.trans there.symm
    · exact absurd (Option.some.inj foundFirst ▸ foundSecond) (unregistered second)
    · exact absurd (Option.some.inj foundSecond ▸ foundFirst) (unregistered first)
    · exact exclusive.single first second held foundFirst foundSecond
  · intro other held found
    rw [CacheManage.find_register] at found
    split at found
    · exact Option.some.inj found ▸ notFree
    · exact exclusive.apart other held found
  · exact exclusive.once
  · exact exclusive.bounded

/-- Taking the first free item keeps the owners exclusive and leaves it nowhere. -/
theorem take_exclusive {manage : CacheManage Nat} (exclusive : Exclusive manage)
    {item : Option Nat} {rest : List (Option Nat)} (free : manage.freeCacheList = item :: rest) :
    Exclusive { manage with freeCacheList := rest } ∧ item ∉ rest := by
  have once := exclusive.once
  have noNull := exclusive.noNull
  have bounded := exclusive.bounded
  rw [free, List.nodup_cons] at once
  rw [free, List.length_cons] at bounded
  refine ⟨⟨⟨noNull.1, ?_⟩, exclusive.single, ?_, once.2, ?_⟩, once.1⟩
  · intro other member
    exact noNull.2 other (free ▸ List.mem_cons_of_mem item member)
  · intro urlId held found member
    exact exclusive.apart urlId held found (free ▸ List.mem_cons_of_mem item member)
  · push_cast at bounded ⊢
    omega

/-- An item that was never allocated is registered for no id and not free. -/
theorem Invariant.fresh {state : State} (invariant : Invariant state) :
    (∀ urlId, state.manage.find urlId ≠ some (some state.allocated)) ∧
      some state.allocated ∉ state.manage.freeCacheList := by
  constructor
  · intro urlId found
    exact Nat.lt_irrefl _ (invariant.registeredOld urlId _ found)
  · intro member
    exact Nat.lt_irrefl _ (invariant.freeOld _ member)

/-- `get_from_cache(f, url_id)` keeps the invariant in each of its three cases. -/
theorem getFromCacheOr_invariant {state next : State} (invariant : Invariant state) (urlId : Int)
    (taken : step state (.getFromCacheOr urlId) = some next) : Invariant next := by
  obtain rfl := Option.some.inj taken
  rcases CacheManage.getFromCacheOr_cases invariant.exclusive.noNull (some state.allocated) urlId
    with ⟨item, found, got⟩ | ⟨_, free, got⟩ | ⟨item, rest, _, free, got⟩
  · simp only [got]
    refine ⟨invariant.exclusive, invariant.registeredOld, invariant.freeOld, ?_⟩
    intro other member
    apply finished_use (invariant.finished other member)
    rintro ⟨rfl⟩
    exact invariant.exclusive.apart urlId _ found member
  · simp only [got]
    obtain ⟨unregistered, notFree⟩ := invariant.fresh
    refine ⟨register_exclusive invariant.exclusive urlId unregistered notFree, ?_, ?_, ?_⟩
    · intro other held found
      rw [CacheManage.find_register] at found
      split at found
      · obtain rfl := Option.some.inj (Option.some.inj found)
        exact Nat.lt_succ_self _
      · exact Nat.lt_succ_of_lt (invariant.registeredOld other held found)
    · intro held member
      exact Nat.lt_succ_of_lt (invariant.freeOld held member)
    · intro held member
      simp [CacheManage.register, free] at member
  · obtain ⟨exclusive, gone⟩ := take_exclusive invariant.exclusive free
    have listed : item ∈ state.manage.freeCacheList := free ▸ List.mem_cons_self
    have remains : ∀ other ∈ rest, other ∈ state.manage.freeCacheList :=
      fun other member => free ▸ List.mem_cons_of_mem item member
    cases item with
    | none => exact absurd rfl (invariant.exclusive.noNull.2 none listed)
    | some item =>
      simp only [got]
      have unregistered : ∀ other, state.manage.find other ≠ some (some item) := fun other found =>
        invariant.exclusive.apart other _ found listed
      refine ⟨register_exclusive exclusive urlId unregistered gone, ?_, ?_, ?_⟩
      · intro other held found
        rw [CacheManage.find_register] at found
        split at found
        · obtain rfl := Option.some.inj (Option.some.inj found)
          exact invariant.freeOld _ listed
        · exact invariant.registeredOld other held found
      · exact fun held member => invariant.freeOld held (remains _ member)
      · intro held member
        apply finished_use (invariant.finished held (remains _ member))
        rintro ⟨rfl⟩
        exact gone member

/-- What is still registered is another id's, as before. -/
theorem find_erased {manage : CacheManage Nat} {urlId other : Int} {held : Option Nat}
    (found : (manage.erase urlId).find other = some held) :
    other ≠ urlId ∧ manage.find other = some held := by
  rw [CacheManage.find_erase] at found
  split at found
  · exact absurd found.symm (Option.some_ne_none held)
  · rename_i different
    exact ⟨different, found⟩

/-- An id loses its item. -/
theorem erase_exclusive {manage : CacheManage Nat} (exclusive : Exclusive manage) (urlId : Int) :
    Exclusive (manage.erase urlId) := by
  constructor
  · exact CacheManage.erase_noNull exclusive.noNull urlId
  · intro first second held foundFirst foundSecond
    exact exclusive.single first second held (find_erased foundFirst).2 (find_erased foundSecond).2
  · intro other held found
    exact exclusive.apart other held (find_erased found).2
  · exact exclusive.once
  · exact exclusive.bounded

/-- An item that no id has becomes free. -/
theorem release_exclusive {manage : CacheManage Nat} (exclusive : Exclusive manage) {item : Nat}
    (unregistered : ∀ other, manage.find other ≠ some (some item))
    (notFree : some item ∉ manage.freeCacheList)
    (room : (manage.freeCacheList.length : Int) < manage.maxCacheCount) :
    Exclusive { manage with freeCacheList := manage.freeCacheList ++ [some item] } := by
  constructor
  · refine ⟨exclusive.noNull.1, ?_⟩
    exact List.forall_mem_append.mpr
      ⟨exclusive.noNull.2, List.forall_mem_singleton.mpr (Option.some_ne_none item)⟩
  · exact exclusive.single
  · intro other held found listed
    rcases List.mem_append.mp listed with free | last
    · exact exclusive.apart other held found free
    · rw [List.mem_singleton.mp last] at found
      exact unregistered other found
  · rw [List.nodup_append_comm, List.singleton_append, List.nodup_cons]
    exact ⟨notFree, exclusive.once⟩
  · rw [List.length_append, List.length_singleton]
    push_cast
    exact Int.add_one_le_of_lt room

/-- `put_cache_back` finishes the item before it becomes free. -/
theorem putCacheBack_invariant {state next : State} (invariant : Invariant state) (urlId : Int)
    (taken : step state (.putCacheBack urlId) = some next) : Invariant next := by
  obtain rfl := Option.some.inj taken
  have erased := erase_exclusive invariant.exclusive urlId
  have registeredOld : ∀ other item, (state.manage.erase urlId).find other = some (some item) →
      item < state.allocated := fun other item found =>
    invariant.registeredOld other item (find_erased found).2
  rcases state.manage.putCacheBack_cases urlId with ⟨_, put⟩ | ⟨held, found, put⟩
  · simpa only [step, put, Option.join_none, Option.map_none, Option.toList_none,
      List.append_nil] using invariant
  · cases held with
    | none => exact absurd found (invariant.exclusive.noNull.1 urlId)
    | some item =>
      have notFree := invariant.exclusive.apart urlId _ found
      have unregistered : ∀ other, (state.manage.erase urlId).find other ≠ some (some item) := by
        intro other still
        obtain ⟨different, before⟩ := find_erased still
        exact different (invariant.exclusive.single other urlId _ before found)
      rcases put with ⟨room, put⟩ | put
      · simp only [put, Option.join_some, Option.map_some, Option.toList_some]
        refine ⟨release_exclusive erased unregistered notFree room, registeredOld, ?_, ?_⟩
        · intro other member
          rcases List.mem_append.mp member with free | last
          · exact invariant.freeOld other free
          · rw [Option.some.inj (List.mem_singleton.mp last)]
            exact invariant.registeredOld urlId item found
        · intro other member
          rcases List.mem_append.mp member with free | last
          · exact finished_append item (invariant.finished other free)
          · rw [Option.some.inj (List.mem_singleton.mp last)]
            exact finished_now state.history item
      · simp only [put, Option.join_some, Option.map_some, Option.toList_some]
        refine ⟨erased, registeredOld, invariant.freeOld, ?_⟩
        intro other member
        exact finished_append item (invariant.finished other member)

/-- A step keeps the invariant. -/
theorem step_invariant {state next : State} {action : Action} (invariant : Invariant state)
    (taken : step state action = some next) : Invariant next := by
  cases action with
  | getFromCacheOr urlId => exact getFromCacheOr_invariant invariant urlId taken
  | putCacheBack urlId => exact putCacheBack_invariant invariant urlId taken
  | isInCache urlId => exact Option.some.inj taken ▸ invariant
  | getFromCache urlId =>
    obtain rfl := Option.some.inj taken
    refine ⟨invariant.exclusive, invariant.registeredOld, invariant.freeOld, ?_⟩
    intro other member
    apply finished_use (invariant.finished other member)
    intro used
    cases found : state.manage.find urlId with
    | none => simp [CacheManage.getFromCache, found] at used
    | some held =>
      have same : held = some other := by simpa [CacheManage.getFromCache, found] using used
      exact invariant.exclusive.apart urlId held found (same ▸ member)
  | reset =>
    obtain rfl := Option.some.inj taken
    refine ⟨⟨CacheManage.reset_noNull state.manage, ?_, ?_, List.nodup_nil, ?_⟩, ?_, ?_, ?_⟩
    · intro first second held found
      simp [CacheManage.reset, CacheManage.find] at found
    · intro other held _
      exact List.not_mem_nil
    · exact Int.le_trans (Int.natCast_nonneg _) invariant.exclusive.bounded
    · simp [CacheManage.reset, CacheManage.find]
    · simp [CacheManage.reset]
    · simp [CacheManage.reset]

/-- The invariant holds at the end of every run. -/
theorem run_invariant {maxCacheCount : Int} (natural : 0 ≤ maxCacheCount) {actions : List Action}
    {finish : State} (ran : LabelledRuns.run step (start maxCacheCount) actions = some finish) :
    Invariant finish :=
  LabelledRuns.run_preserves (fun _ _ _ invariant taken => step_invariant invariant taken)
    (start_invariant maxCacheCount natural) ran

/-- The limit of the pool never changes. -/
theorem step_limit {state next : State} {action : Action}
    (taken : step state action = some next) :
    next.manage.maxCacheCount = state.manage.maxCacheCount := by
  cases action with
  | getFromCacheOr urlId =>
    obtain rfl := Option.some.inj taken
    simp only [CacheManage.getFromCacheOr, CacheManage.getCacheHelper, CacheManage.register]
    split
    · rfl
    · split <;> rfl
  | putCacheBack urlId =>
    obtain rfl := Option.some.inj taken
    rcases state.manage.putCacheBack_cases urlId with ⟨_, put⟩ | ⟨_, _, ⟨_, put⟩ | put⟩ <;>
      simp only [put, CacheManage.erase]
  | getFromCache urlId | isInCache urlId | reset =>
    obtain rfl := Option.some.inj taken
    rfl

/-- The calls after which an id may be given another item. -/
def Returns (urlId : Int) (action : Action) : Prop :=
  action = .putCacheBack urlId ∨ action = .reset

/-- An id keeps its item until the item is put back or the pool is reset. -/
theorem step_registered {state next : State} {action : Action} (invariant : Invariant state)
    {urlId : Int} {item : Nat} (registered : state.manage.find urlId = some (some item))
    (keeps : ¬ Returns urlId action) (taken : step state action = some next) :
    next.manage.find urlId = some (some item) := by
  cases action with
  | getFromCacheOr other =>
    obtain rfl := Option.some.inj taken
    rcases CacheManage.getFromCacheOr_cases invariant.exclusive.noNull (some state.allocated) other
      with ⟨_, _, got⟩ | ⟨absent, _, got⟩ | ⟨_, rest, absent, _, got⟩
    · simpa only [got] using registered
    · have different : urlId ≠ other := by
        rintro rfl
        simp [absent] at registered
      simpa only [got, CacheManage.find_register, if_neg different] using registered
    · have different : urlId ≠ other := by
        rintro rfl
        simp [absent] at registered
      simp only [got, CacheManage.find_register, if_neg different]
      exact registered
  | putCacheBack other =>
    obtain rfl := Option.some.inj taken
    have different : urlId ≠ other := by
      rintro rfl
      exact keeps (.inl rfl)
    have erased : (state.manage.erase other).find urlId = some (some item) := by
      rw [CacheManage.find_erase, if_neg different]
      exact registered
    rcases state.manage.putCacheBack_cases other with ⟨_, put⟩ | ⟨_, _, ⟨_, put⟩ | put⟩
    · simpa only [put] using registered
    · simp only [put]
      exact erased
    · simpa only [put] using erased
  | getFromCache other | isInCache other =>
    obtain rfl := Option.some.inj taken
    exact registered
  | reset => exact absurd (.inr rfl) keeps

/-- An id and its item in a state with the invariant. -/
structure Registered (urlId : Int) (item : Nat) (state : State) : Prop where
  invariant : Invariant state
  found : state.manage.find urlId = some (some item)

/-- An id keeps its item over every run without a call that returns it. -/
theorem registered_until_returned {state last : State} (invariant : Invariant state) {urlId : Int}
    {item : Nat} (registered : state.manage.find urlId = some (some item)) {between : List Action}
    (keeps : ∀ action ∈ between, ¬ Returns urlId action)
    (ran : LabelledRuns.run step state between = some last) :
    last.manage.find urlId = some (some item) := by
  have preserved : ∀ state action next, Registered urlId item state → ¬ Returns urlId action →
      step state action = some next → Registered urlId item next := by
    intro state action next held keeping taken
    exact ⟨step_invariant held.invariant taken,
      step_registered held.invariant held.found keeping taken⟩
  have met : LabelledRuns.Meets step (fun _ action => ¬ Returns urlId action) state between :=
    LabelledRuns.meets_of_labels state between keeps
  have finished := LabelledRuns.run_preserves_under preserved ⟨invariant, registered⟩ met ran
  exact finished.found

/-- An id that was given an item by `get_from_cache(f, url_id)` has it registered. -/
theorem handedOut_registered {state next : State} (invariant : Invariant state) {urlId : Int}
    (taken : step state (.getFromCacheOr urlId) = some next) :
    ∃ item, handedOut state urlId = some item ∧ next.manage.find urlId = some (some item) := by
  obtain rfl := Option.some.inj taken
  rcases CacheManage.getFromCacheOr_cases invariant.exclusive.noNull (some state.allocated) urlId
    with ⟨item, found, got⟩ | ⟨_, _, got⟩ | ⟨held, rest, _, free, got⟩
  · exact ⟨item, by simp only [handedOut, got], by simpa only [got] using found⟩
  · refine ⟨state.allocated, by simp only [handedOut, got], ?_⟩
    simp only [got, CacheManage.find_register, if_pos]
  · cases held with
    | none => exact absurd rfl (invariant.exclusive.noNull.2 none (free ▸ List.mem_cons_self))
    | some item =>
      refine ⟨item, by simp only [handedOut, got], ?_⟩
      simp only [got, CacheManage.find_register, if_pos]

/-- What is handed out is the registered item, if there is one. -/
theorem handedOut_of_registered {state : State} {urlId : Int} {item : Nat}
    (registered : state.manage.find urlId = some (some item)) :
    handedOut state urlId = some item := by
  simp only [handedOut, CacheManage.getFromCacheOr, registered]

/-- The item that an id is handed from the free list. -/
def takesFree (state : State) (urlId : Int) : Option Nat :=
  if state.manage.isInCache urlId then none else state.manage.freeCacheList.head?.join

/-- In every state of every run the owners of items are exclusive; an id keeps its
item over all calls that do not put it back and are no reset; and an item that is
handed out from the free list was finished after its last use. -/
theorem ownership_exclusive (maxCacheCount : Int) (natural : 0 ≤ maxCacheCount)
    (actions : List Action) (finish : State)
    (ran : LabelledRuns.run step (start maxCacheCount) actions = some finish) :
    Exclusive finish.manage ∧ finish.manage.maxCacheCount = maxCacheCount ∧
      (∀ urlId given between last, step finish (.getFromCacheOr urlId) = some given →
        (∀ action ∈ between, ¬ Returns urlId action) →
        LabelledRuns.run step given between = some last →
        (handedOut finish urlId).isSome ∧ handedOut last urlId = handedOut finish urlId ∧
          last.manage.getFromCache urlId = handedOut finish urlId) ∧
      ∀ urlId item, takesFree finish urlId = some item →
        handedOut finish urlId = some item ∧ FinishedSinceUse finish.history item := by
  have invariant := run_invariant natural ran
  refine ⟨invariant.exclusive, ?_, ?_, ?_⟩
  · exact LabelledRuns.run_preserves
      (fun _ _ _ (limit : _ = maxCacheCount) taken => (step_limit taken).trans limit) rfl ran
  · intro urlId given between last taken keeps following
    obtain ⟨item, handed, registered⟩ := handedOut_registered invariant taken
    have kept := registered_until_returned (step_invariant invariant taken) registered keeps
      following
    rw [handed, handedOut_of_registered kept]
    exact ⟨rfl, rfl, by simp [CacheManage.getFromCache, kept]⟩
  · intro urlId item free
    rw [takesFree] at free
    split at free
    · exact absurd free.symm (Option.some_ne_none item)
    · rename_i absent
      have unregistered : finish.manage.find urlId = none := by
        simpa [CacheManage.isInCache] using absent
      cases listed : finish.manage.freeCacheList with
      | nil => simp [listed] at free
      | cons head rest =>
        have same : head = some item := by simpa [listed] using free
        constructor
        · simp only [handedOut, CacheManage.getFromCacheOr, unregistered, CacheManage.getCacheHelper,
            listed, same]
        · exact invariant.finished item (by rw [listed, same]; exact List.mem_cons_self)

/-- A pool of one keeps the first of two returned items, and a third id is given it. -/
theorem recycled_item_exclusive :
    ∃ finish, LabelledRuns.run step (start 1)
        [.getFromCacheOr 7, .getFromCacheOr 8, .putCacheBack 7, .putCacheBack 8] = some finish ∧
      Exclusive finish.manage ∧ handedOut finish 9 = some 0 ∧
      FinishedSinceUse finish.history 0 := by
  have ran : ∃ finish, LabelledRuns.run step (start 1)
      [.getFromCacheOr 7, .getFromCacheOr 8, .putCacheBack 7, .putCacheBack 8] = some finish ∧
      takesFree finish 9 = some 0 := ⟨_, rfl, rfl⟩
  obtain ⟨finish, ran, free⟩ := ran
  obtain ⟨exclusive, _, _, recycled⟩ := ownership_exclusive 1 (by decide) _ finish ran
  obtain ⟨handed, finished⟩ := recycled 9 0 free
  exact ⟨finish, ran, exclusive, handed, finished⟩

end Mprt.CacheOwnership
