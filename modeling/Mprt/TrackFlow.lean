import Mathlib.Data.List.Nodup
import Mathlib.Logic.Relation
import Mprt.Player

/-!
# Where the tracks of a player are

A flow keeps of the player only which url ids are where: asked for, waiting to be
opened by the input plugin, handed over, listed by the decoder, announced, on
their way to the output plugin, queued there, reported as played and to be closed.
Jobs that carry no id are counted.

A move takes one track one place further, or out of the player. The moves say
everything that a step of the player can do to its tracks; what holds of every
run is derived from them alone. The last part is about the moves after a request
for one item that finds the way before it empty.
-/

namespace Mprt.TrackFlow

/-- The url ids of the tracks by place, in their order; `finished` are the tracks that
the decoder has finished, by the id they were finished under. -/
structure Flow where
  counter : Int
  starts : Nat
  stops : Nat
  failures : Nat
  seeks : List Int
  asked : List Int
  waiting : List Int
  handed : List Int
  listing : List Int
  listed : List Int
  announced : List Int
  adding : List Int
  queued : List Int
  reported : List Int
  closing : List Int
  pool : List Int
  finished : Int → Option Int
  opened : List Int
  decoded : List Int
  added : List Int

namespace Flow

/-- A new item is asked for. -/
def ask (flow : Flow) : Flow :=
  { flow with counter := flow.counter + 1, asked := flow.asked ++ [flow.counter + 1] }

/-- The tracks on their way to the decoder, those that go first at the front. -/
def ahead (flow : Flow) : List Int :=
  flow.listed ++ flow.listing ++ flow.handed ++ flow.waiting ++ flow.asked

/-- The tracks that the decoder has opened on their way to the output plugin, those
that have arrived first. -/
def passing (flow : Flow) : List Int :=
  flow.added ++ flow.adding ++ flow.announced

/-- Every id in the flow, wherever it is. -/
def ids (flow : Flow) : List Int :=
  flow.ahead ++ flow.passing ++ flow.queued ++ flow.reported ++ flow.closing ++ flow.pool

end Flow

/-- What one step can do to the tracks. A progress report asks for the next item only
in a flow where it may. -/
inductive Move (media : Media) (prefetch : Flow → Prop) (before : Flow) : Flow → Prop where
  | started (starts : Nat) (pending : before.starts = starts + 1) :
      Move media prefetch before { before with starts := starts }.ask
  | prefetched (allowed : prefetch before) : Move media prefetch before before.ask
  | skipped (failures : Nat) (pending : before.failures = failures + 1) :
      Move media prefetch before { before with failures := failures }
  | retried (failures : Nat) (pending : before.failures = failures + 1) :
      Move media prefetch before { before with failures := failures }.ask
  | filed (urlId : Int) (rest : List Int) (first : before.asked = urlId :: rest) :
      Move media prefetch before
        { before with asked := rest, waiting := before.waiting ++ [urlId] }
  | unfiled (urlId : Int) (rest : List Int) (first : before.asked = urlId :: rest)
      (missing : media.fileExists urlId = false) :
      Move media prefetch before { before with asked := rest }
  | opened (urlId : Int) (rest : List Int) (first : before.waiting = urlId :: rest) :
      Move media prefetch before { before with
        waiting := rest
        handed := before.handed ++ [urlId]
        opened := before.opened ++ [urlId] }
  | unopened (urlId : Int) (rest : List Int) (first : before.waiting = urlId :: rest)
      (failed : media.openFile urlId ≠ .opened) :
      Move media prefetch before
        { before with waiting := rest, failures := before.failures + 1 }
  | closed (urlId : Int) (rest waiting : List Int) (first : before.closing = urlId :: rest)
      (removed : waiting = before.waiting ∨ waiting = before.waiting.erase urlId) :
      Move media prefetch before { before with closing := rest, waiting := waiting }
  | handed (urlId : Int) (rest : List Int) (first : before.handed = urlId :: rest) :
      Move media prefetch before
        { before with handed := rest, listing := before.listing ++ [urlId] }
  | listed (urlId : Int) (rest : List Int) (first : before.listing = urlId :: rest) :
      Move media prefetch before
        { before with listing := rest, listed := before.listed ++ [urlId] }
  | announced (urlId : Int) (rest : List Int) (first : before.listed = urlId :: rest)
      (fresh : urlId ∉ before.pool) :
      Move media prefetch before { before with
        pool := urlId :: before.pool
        opened := before.opened ++ [urlId]
        announced := before.announced ++ [urlId] }
  | unannounced (urlId : Int) (rest reported : List Int) (first : before.listed = urlId :: rest)
      (failed : media.initApi urlId ≠ .opened)
      (answer : reported = before.reported ∨ reported = before.reported ++ [urlId]) :
      Move media prefetch before
        { before with pool := urlId :: before.pool, reported := reported }
  | decoded (urlId : Int) (rest : List Int) (first : before.listed = urlId :: rest)
      (ready : urlId ∈ before.pool) :
      Move media prefetch before { before with decoded := before.decoded ++ [urlId] }
  | ended (urlId : Int) (rest : List Int) (first : before.listed = urlId :: rest)
      (ready : urlId ∈ before.pool) :
      Move media prefetch before { before with
        listed := rest
        finished := Function.update before.finished urlId (some urlId) }
  | lost (urlId other : Int) (reports rest : List Int)
      (report : before.reported = urlId :: reports) (unfinished : before.finished urlId = none)
      (first : before.listed = other :: rest) :
      Move media prefetch before { before with
        listed := rest
        finished := Function.update before.finished urlId (some other) }
  | released (urlId : Int) (reports : List Int) (report : before.reported = urlId :: reports)
      (finished : before.finished urlId = some urlId) :
      Move media prefetch before { before with
        reported := reports
        pool := before.pool.erase urlId
        finished := Function.update before.finished urlId none
        closing := before.closing ++ [urlId] }
  | unmatched (urlId other : Int) (reports : List Int)
      (report : before.reported = urlId :: reports)
      (finished : before.finished urlId = some other) (different : other ≠ urlId) :
      Move media prefetch before { before with reported := reports }
  | sought (urlId : Int) (rest listed : List Int) (first : before.seeks = urlId :: rest)
      (known : ∀ other ∈ listed,
        other ∈ before.listed ∨ before.finished urlId = some other)
      (unknown : urlId ∉ before.listed → before.finished urlId = none →
        listed = before.listed) :
      Move media prefetch before { before with seeks := rest, listed := listed }
  | passed (urlId : Int) (rest : List Int) (first : before.announced = urlId :: rest) :
      Move media prefetch before
        { before with announced := rest, adding := before.adding ++ [urlId] }
  | added (urlId : Int) (rest : List Int) (first : before.adding = urlId :: rest) :
      Move media prefetch before { before with
        adding := rest
        queued := before.queued ++ [urlId]
        added := before.added ++ [urlId] }
  | stopped (stops : Nat) (pending : before.stops = stops + 1) :
      Move media prefetch before { before with
        stops := stops
        queued := []
        reported := before.reported ++ before.queued }
  | played (urlId : Int) (rest : List Int) (first : before.queued = urlId :: rest) :
      Move media prefetch before
        { before with queued := rest, reported := before.reported ++ [urlId] }
  | starved (urlId : Int) (rest : List Int) (first : before.queued = urlId :: rest) :
      Move media prefetch before { before with queued := rest }

/-- What a step does to the tracks: moves, one after the other. -/
def Moves (media : Media) (prefetch : Flow → Prop) : Flow → Flow → Prop :=
  Relation.ReflTransGen (Move media prefetch)

variable {media : Media} {prefetch : Flow → Prop} {before after : Flow} {old : Int}

/-- A step of the player that makes one move. The flow after it need only be equal to the one that
the move leads to. -/
theorem Moves.one {middle : Flow} (move : Move media prefetch before middle)
    (same : after = middle) : Moves media prefetch before after :=
  same ▸ .single move

/-- A step of the player that takes no track anywhere makes no move. -/
theorem Moves.still (same : after = before) : Moves media prefetch before after :=
  same ▸ .refl

/-- What every move keeps is kept by moves, by induction on their number. All invariants of the
flow are carried over runs in this way. -/
theorem Moves.preserve {invariant : Flow → Prop}
    (kept : ∀ before after, invariant before → Move media prefetch before after →
      invariant after)
    (holds : invariant before) (moves : Moves media prefetch before after) :
    invariant after := by
  induction moves with
  | refl => exact holds
  | tail earlier move inductionHypothesis => exact kept _ _ inductionHypothesis move

/-! ## Where a move takes an id from -/

/-- An id on its way to the decoder is asked for, waiting for its file, handed over, about to be
listed or listed. -/
theorem Flow.mem_ahead {flow : Flow} {urlId : Int} : urlId ∈ flow.ahead ↔
    urlId ∈ flow.listed ∨ urlId ∈ flow.listing ∨ urlId ∈ flow.handed ∨ urlId ∈ flow.waiting ∨
      urlId ∈ flow.asked := by
  simp only [Flow.ahead, List.mem_append, or_assoc]

/-- An id on its way to the output plugin has been announced, passed on or added to the queue. -/
theorem Flow.mem_passing {flow : Flow} {urlId : Int} : urlId ∈ flow.passing ↔
    urlId ∈ flow.added ∨ urlId ∈ flow.adding ∨ urlId ∈ flow.announced := by
  simp only [Flow.passing, List.mem_append, or_assoc]

/-- An id in the flow is before the decoder, between it and the output plugin, or behind both. -/
theorem Flow.mem_ids {flow : Flow} {urlId : Int} : urlId ∈ flow.ids ↔
    urlId ∈ flow.ahead ∨ urlId ∈ flow.passing ∨
      urlId ∈ flow.queued ++ flow.reported ++ flow.closing ++ flow.pool := by
  simp only [Flow.ids, List.mem_append, or_assoc]

/-- The tracks that the decoder lists are in the flow. -/
theorem Flow.mem_ids_of_listed {flow : Flow} {urlId : Int} (listed : urlId ∈ flow.listed) :
    urlId ∈ flow.ids :=
  Flow.mem_ids.mpr (.inl (Flow.mem_ahead.mpr (.inl listed)))

/-- No move adds a seek: those that are pending were pending before. -/
theorem Move.seeks_known (move : Move media prefetch before after) {urlId : Int}
    (present : urlId ∈ after.seeks) : urlId ∈ before.seeks := by
  cases move with
  | sought other rest listed first known unknown =>
    exact first ▸ List.mem_cons_of_mem other present
  | _ => exact present

/-- An id on its way to the decoder is new only as the last one given; a seek may bring a
finished track back. -/
theorem Move.ahead_known (move : Move media prefetch before after) {urlId : Int}
    (present : urlId ∈ after.ahead) :
    urlId ∈ before.ahead ∨ (∃ sought ∈ before.seeks, before.finished sought = some urlId) ∨
      urlId = before.counter + 1 ∧ urlId = after.counter := by
  cases move with
  | started | prefetched | retried =>
    simp only [Flow.mem_ahead, Flow.ask, List.mem_append, List.mem_singleton] at present ⊢
    tauto
  | filed | unfiled | opened | unopened | closed | handed | listed | ended | lost | sought =>
    simp only [Flow.mem_ahead] at present ⊢
    grind [List.mem_of_mem_erase]
  | _ => exact .inl present

/-- What is on its way to the output plugin after a move was so before, or the decoder had it
listed. -/
theorem Move.passing_known (move : Move media prefetch before after) {urlId : Int}
    (present : urlId ∈ after.passing) : urlId ∈ before.passing ∨ urlId ∈ before.listed := by
  cases move with
  | announced | passed | added =>
    simp only [Flow.mem_passing] at present ⊢
    grind
  | _ => exact .inl present

/-- A file or a track is opened only when its id was on its way to the decoder. -/
theorem Move.opened_known (move : Move media prefetch before after) {urlId : Int}
    (present : urlId ∈ after.opened) : urlId ∈ before.opened ∨ urlId ∈ before.ahead := by
  cases move with
  | opened | announced =>
    simp only [Flow.mem_ahead]
    grind
  | _ => exact .inl present

/-- So is a track only decoded from the list of the decoder, which is the last place of this way. -/
theorem Move.decoded_known (move : Move media prefetch before after) {urlId : Int}
    (present : urlId ∈ after.decoded) : urlId ∈ before.decoded ∨ urlId ∈ before.ahead := by
  cases move with
  | decoded =>
    simp only [Flow.mem_ahead]
    grind
  | _ => exact .inl present

/-- While no stop is pending the queue of the output plugin gets only tracks that were on
their way to it. -/
theorem Move.queued_known (move : Move media prefetch before after) (stops : after.stops = 0)
    {urlId : Int} (present : urlId ∈ after.queued) :
    before.stops = 0 ∧ urlId ∈ before.queued ∨ urlId ∈ before.passing := by
  cases move with
  | added | stopped | played | starved =>
    simp only [Flow.mem_passing]
    grind
  | _ => exact .inl ⟨stops, present⟩

/-- Behind the decoder there are only ids that were in the flow already: none is new there. -/
theorem Move.left_known (move : Move media prefetch before after) {urlId : Int}
    (present : urlId ∈ after.queued ++ after.reported ++ after.closing ++ after.pool) :
    urlId ∈ before.ids := by
  simp only [Flow.ids, Flow.mem_ahead, Flow.mem_passing, List.mem_append] at present ⊢
  cases move with
  | closed | announced | unannounced | released | unmatched | added | stopped | played | starved =>
    grind [List.mem_of_mem_erase]
  | _ => tauto

/-- A track is finished, under whatever id, only from the list of the decoder. -/
theorem Move.finished_known (move : Move media prefetch before after) {under urlId : Int}
    (finished : after.finished under = some urlId) :
    before.finished under = some urlId ∨ urlId ∈ before.listed := by
  cases move with
  | ended | lost | released =>
    simp only [Function.update_apply] at finished
    grind
  | _ => exact .inl finished

/-- Url ids are given in increasing order, since the counter goes up with every item that is asked
for and never down. -/
theorem Move.counter_le (move : Move media prefetch before after) :
    before.counter ≤ after.counter := by
  cases move with
  | started | prefetched | retried => exact Int.le_add_one (Int.le_refl _)
  | _ => exact Int.le_refl _

/-! ## Ids that have been given -/

/-- Every id in the flow has been given. -/
structure Issued (flow : Flow) : Prop where
  ids : ∀ urlId ∈ flow.ids, urlId ≤ flow.counter
  finished : ∀ under urlId, flow.finished under = some urlId → urlId ≤ flow.counter

/-- Whatever a move does, the ids in the flow and those of the finished tracks have been given:
they are at most the counter. -/
theorem Issued.move (issued : Issued before) (move : Move media prefetch before after) :
    Issued after := by
  have grows := move.counter_le
  constructor
  · intro urlId present
    rcases Flow.mem_ids.mp present with ahead | passing | left
    · rcases move.ahead_known ahead with same | ⟨sought, _, finished⟩ | new
      · exact Int.le_trans (issued.ids urlId (Flow.mem_ids.mpr (.inl same))) grows
      · exact Int.le_trans (issued.finished sought urlId finished) grows
      · exact Int.le_of_eq new.2
    · rcases move.passing_known passing with same | listed
      · exact Int.le_trans (issued.ids urlId (Flow.mem_ids.mpr (.inr (.inl same)))) grows
      · exact Int.le_trans (issued.ids urlId (Flow.mem_ids_of_listed listed)) grows
    · exact Int.le_trans (issued.ids urlId (move.left_known left)) grows
  · intro under urlId finished
    rcases move.finished_known finished with same | listed
    · exact Int.le_trans (issued.finished under urlId same) grows
    · exact Int.le_trans (issued.ids urlId (Flow.mem_ids_of_listed listed)) grows

/-- Any number of moves keeps this, so it holds in every state that the player reaches. -/
theorem Issued.moves (issued : Issued before) (moves : Moves media prefetch before after) :
    Issued after :=
  moves.preserve (fun _ _ => Issued.move) issued

/-! ## After a request that finds the way before it empty -/

/-- Nothing that was given up to `old` is on its way, and no pending seek brings it back.
What the output plugin still queues of it goes when the pending stop is run. -/
structure Clean (old : Int) (flow : Flow) : Prop where
  sought : ∀ urlId ∈ flow.seeks, urlId ≤ old
  seeks : ∀ urlId ∈ flow.seeks, ∀ track, flow.finished urlId = some track → old < track
  counter : old ≤ flow.counter
  ahead : ∀ urlId ∈ flow.ahead, old < urlId
  passing : ∀ urlId ∈ flow.passing, old < urlId
  opened : ∀ urlId ∈ flow.opened, old < urlId
  decoded : ∀ urlId ∈ flow.decoded, old < urlId
  queued : flow.stops = 0 → ∀ urlId ∈ flow.queued, old < urlId

/-- While all that is on its way is new, every move keeps it so: an id comes to a place from the
place before it, or as the next of the counter. -/
theorem Clean.move (clean : Clean old before) (move : Move media prefetch before after) :
    Clean old after := by
  have listed : ∀ urlId ∈ before.listed, old < urlId := fun urlId present =>
    clean.ahead urlId (Flow.mem_ahead.mpr (.inl present))
  refine ⟨fun urlId present => clean.sought urlId (move.seeks_known present), ?_,
    Int.le_trans clean.counter move.counter_le, ?_, ?_, ?_, ?_, ?_⟩
  · intro urlId present track finished
    rcases move.finished_known finished with same | new
    · exact clean.seeks urlId (move.seeks_known present) track same
    · exact listed track new
  · intro urlId present
    rcases move.ahead_known present with same | ⟨sought, pending, finished⟩ | new
    · exact clean.ahead urlId same
    · exact clean.seeks sought pending urlId finished
    · exact new.1 ▸ Int.lt_add_one_of_le clean.counter
  · intro urlId present
    rcases move.passing_known present with same | new
    · exact clean.passing urlId same
    · exact listed urlId new
  · intro urlId present
    rcases move.opened_known present with same | new
    · exact clean.opened urlId same
    · exact clean.ahead urlId new
  · intro urlId present
    rcases move.decoded_known present with same | new
    · exact clean.decoded urlId same
    · exact clean.ahead urlId new
  · intro stops urlId present
    rcases move.queued_known stops present with ⟨none, same⟩ | new
    · exact clean.queued none urlId same
    · exact clean.passing urlId new

/-- Every track that the output plugin queues or has reported is there once and finished
under its own id, and what the decoder and the input plugin keep is not new. -/
structure Orderly (old : Int) (flow : Flow) : Prop where
  once : (flow.queued ++ flow.reported).Nodup
  finished : ∀ urlId ∈ flow.queued ++ flow.reported, flow.finished urlId = some urlId
  closing : ∀ urlId ∈ flow.closing, urlId ≤ old
  reported : ∀ urlId ∈ flow.queued ++ flow.reported, urlId ≤ old
  pool : ∀ urlId ∈ flow.pool, urlId ≤ old
  kept : ∀ under urlId, flow.finished under = some urlId → urlId ≤ old

/-- Only where the reported tracks are in the flow matters, not what else is. -/
theorem Orderly.of_perm (orderly : Orderly old before)
    (same : (after.queued ++ after.reported).Perm (before.queued ++ before.reported))
    (finished : after.finished = before.finished) (closing : after.closing = before.closing)
    (pool : after.pool = before.pool) : Orderly old after where
  once := same.nodup_iff.mpr orderly.once
  finished := by
    intro urlId present
    rw [finished]
    exact orderly.finished urlId (same.mem_iff.mp present)
  closing := closing ▸ orderly.closing
  reported := fun urlId present => orderly.reported urlId (same.mem_iff.mp present)
  pool := pool ▸ orderly.pool
  kept := finished ▸ orderly.kept

/-- The answer to a report leaves every other reported track finished, since none is
reported twice. -/
theorem Orderly.released (orderly : Orderly old before) {urlId : Int} {reports : List Int}
    (report : before.reported = urlId :: reports) :
    Orderly old { before with
      reported := reports
      pool := before.pool.erase urlId
      finished := Function.update before.finished urlId none
      closing := before.closing ++ [urlId] } := by
  have apart : (urlId :: (before.queued ++ reports)).Nodup := by
    apply List.perm_middle.nodup_iff.mp
    rw [← report]
    exact orderly.once
  have fewer : ∀ other ∈ before.queued ++ reports, other ∈ before.queued ++ before.reported := by
    intro other present
    rw [report]
    exact List.perm_middle.mem_iff.mpr (List.mem_cons_of_mem urlId present)
  have bounded : urlId ≤ old := orderly.reported urlId (by simp [report])
  refine ⟨apart.of_cons, ?_, ?_, fun other present => orderly.reported other (fewer other present),
    fun other present => orderly.pool other (List.mem_of_mem_erase present), ?_⟩
  · intro other present
    have different : other ≠ urlId := fun same => (List.nodup_cons.mp apart).1 (same ▸ present)
    exact (Function.update_of_ne different _ _).trans
      (orderly.finished other (fewer other present))
  · intro other present
    rcases List.mem_append.mp present with known | new
    · exact orderly.closing other known
    · exact List.mem_singleton.mp new ▸ bounded
  · intro under other
    simp only [Function.update_apply]
    split
    · intro finished
      contradiction
    · exact orderly.kept under other

/-- A track that is dropped from the queue is not reported. -/
theorem Orderly.starved (orderly : Orderly old before) {urlId : Int} {rest : List Int}
    (first : before.queued = urlId :: rest) : Orderly old { before with queued := rest } := by
  have fewer : ∀ other ∈ rest ++ before.reported, other ∈ before.queued ++ before.reported := by
    intro other present
    rw [first]
    exact List.mem_cons_of_mem urlId present
  have once := orderly.once
  rw [first] at once
  exact ⟨once.of_cons, fun other present => orderly.finished other (fewer other present),
    orderly.closing, fun other present => orderly.reported other (fewer other present),
    orderly.pool, orderly.kept⟩

/-- How far the requested item has come: its request is pending with nothing before it,
it is the first on its way to the decoder, or the first that goes to the output plugin. -/
inductive Stage (old : Int) (flow : Flow) : Prop where
  | requested (starts : flow.starts = 1) (failures : flow.failures = 0)
      (counter : flow.counter = old) (ahead : flow.ahead = []) (passing : flow.passing = [])
      (orderly : Orderly old flow)
  | coming (starts : flow.starts = 0) (ahead : flow.ahead.head? = some (old + 1))
      (passing : flow.passing = []) (orderly : Orderly old flow)
  | come (passing : flow.passing.head? = some (old + 1))

/-- The file and the track of an item can be opened. -/
structure Playable (media : Media) (urlId : Int) : Prop where
  fileExists : media.fileExists urlId = true
  openFile : media.openFile urlId = .opened
  initApi : media.initApi urlId = .opened

/-- Another item that is dropped on its way does not change which is the first, wherever in the
order it was. -/
theorem head_of_dropped {front rest : List Int} {dropped first : Int} (different : dropped ≠ first)
    (head : (front ++ dropped :: rest).head? = some first) :
    (front ++ rest).head? = some first := by
  cases front with
  | nil => exact absurd (Option.some.inj head) different
  | cons other others => exact head

/-- What goes to the output plugin stays in its order: a move can only add a track at the end of
those that have passed the decoder. -/
theorem Move.passing_prefix (move : Move media prefetch before after) :
    before.passing <+: after.passing := by
  cases move with
  | announced urlId rest first fresh =>
    exact ⟨[urlId], by simp only [Flow.passing, List.append_assoc]⟩
  | passed urlId rest first =>
    exact ⟨[], by simp only [Flow.passing, first, List.append_assoc, List.append_nil,
      List.singleton_append]⟩
  | added urlId rest first =>
    exact ⟨[], by simp only [Flow.passing, first, List.append_assoc, List.append_nil,
      List.singleton_append]⟩
  | _ => exact List.prefix_rfl

/-- The first track of the decoder, when it is new and can be opened, is not finished
before it is announced, so that the order of the old tracks is kept until then. -/
theorem Orderly.move (orderly : Orderly old before)
    (front : ∀ urlId rest, before.listed = urlId :: rest →
      old < urlId ∧ media.initApi urlId = .opened)
    (move : Move media prefetch before after) (passing : before.passing = [])
    (quiet : after.passing = []) : Orderly old after := by
  cases move with
  | closed urlId rest waiting first removed =>
    refine ⟨orderly.once, orderly.finished, ?_, orderly.reported, orderly.pool, orderly.kept⟩
    exact fun other present => orderly.closing other (first ▸ List.mem_cons_of_mem urlId present)
  | announced urlId rest first fresh =>
    simp [Flow.passing] at quiet
  | unannounced urlId rest reported first failed answer =>
    exact absurd (front urlId rest first).2 failed
  | ended urlId rest first ready =>
    have new := (front urlId rest first).1
    have known := orderly.pool urlId ready
    omega
  | lost urlId other reports rest report unfinished first =>
    have finished := orderly.finished urlId (by simp [report])
    rw [unfinished] at finished
    contradiction
  | released urlId reports report finished => exact orderly.released report
  | unmatched urlId other reports report finished different =>
    have same := orderly.finished urlId (by simp [report])
    rw [finished] at same
    exact absurd (Option.some.inj same) different
  | added urlId rest first => simp [Flow.passing, first] at passing
  | stopped stops pending =>
    refine orderly.of_perm ?_ rfl rfl rfl
    rw [List.nil_append]
    exact List.perm_append_comm
  | played urlId rest first =>
    refine orderly.of_perm ?_ rfl rfl rfl
    rw [first, ← List.append_assoc]
    exact List.perm_append_singleton urlId (rest ++ before.reported)
  | starved urlId rest first => exact orderly.starved first
  | _ => exact orderly.of_perm .rfl rfl rfl rfl

/-- A seek that was asked for before finds no track to bring back. -/
theorem Clean.sought_nothing (clean : Clean old before) (orderly : Orderly old before)
    {urlId : Int} {rest listed : List Int} (first : before.seeks = urlId :: rest)
    (unknown : urlId ∉ before.listed → before.finished urlId = none → listed = before.listed) :
    listed = before.listed := by
  have pending : urlId ∈ before.seeks := by simp [first]
  refine unknown ?_ ?_
  · intro present
    have new := clean.ahead urlId (by simp [Flow.ahead, present])
    have known := clean.sought urlId pending
    omega
  · rw [Option.eq_none_iff_forall_ne_some]
    intro track finished
    have new := clean.seeks urlId pending track finished
    have known := orderly.kept urlId track finished
    omega

/-- The first track of the decoder is the first on its way. -/
theorem Flow.front_of_ahead {flow : Flow} {urlId first : Int} {rest : List Int}
    (front : flow.listed = urlId :: rest) (head : flow.ahead.head? = some first) :
    urlId = first := by
  rw [Flow.ahead, front] at head
  exact Option.some.inj head

/-- The first item on its way to the decoder stays the first one until it is announced:
others join behind it, and it can not be dropped. -/
theorem Move.first_kept (move : Move media prefetch before after)
    (playable : Playable media (old + 1)) (clean : Clean old before)
    (orderly : Orderly old before) (passing : before.passing = [])
    (head : before.ahead.head? = some (old + 1)) :
    (after.ahead.head? = some (old + 1) ∧ after.passing = []) ∨ after.passing = [old + 1] := by
  have joined : ∀ urlId, (before.ahead ++ [urlId]).head? = some (old + 1) := by
    intro urlId
    rw [List.head?_append, head]
    rfl
  cases move with
  | started starts pending => exact .inl ⟨by simpa [Flow.ask, Flow.ahead] using joined _, passing⟩
  | prefetched allowed => exact .inl ⟨by simpa [Flow.ask, Flow.ahead] using joined _, passing⟩
  | retried failures pending =>
    exact .inl ⟨by simpa [Flow.ask, Flow.ahead] using joined _, passing⟩
  | filed urlId rest first =>
    exact .inl ⟨by simpa [Flow.ahead, first] using head, passing⟩
  | unfiled urlId rest first missing =>
    refine .inl ⟨?_, passing⟩
    rw [Flow.ahead, first] at head
    refine head_of_dropped ?_ head
    rintro rfl
    simp [playable.fileExists] at missing
  | opened urlId rest first =>
    exact .inl ⟨by simpa [Flow.ahead, first] using head, passing⟩
  | unopened urlId rest first failed =>
    refine .inl ⟨?_, passing⟩
    rw [Flow.ahead, first, List.append_assoc, List.cons_append] at head
    rw [Flow.ahead, List.append_assoc]
    refine head_of_dropped ?_ head
    rintro rfl
    exact failed playable.openFile
  | closed urlId rest waiting first removed =>
    have known : urlId ≤ old := orderly.closing urlId (by simp [first])
    have absent : urlId ∉ before.waiting := by
      intro present
      have new := clean.ahead urlId (by simp [Flow.ahead, present])
      omega
    rw [List.erase_of_not_mem absent, or_self] at removed
    exact .inl ⟨removed ▸ head, passing⟩
  | handed urlId rest first =>
    exact .inl ⟨by simpa [Flow.ahead, first] using head, passing⟩
  | listed urlId rest first =>
    exact .inl ⟨by simpa [Flow.ahead, first] using head, passing⟩
  | announced urlId rest first fresh =>
    have grown : before.passing ++ [urlId] = [old + 1] := by
      rw [passing, Flow.front_of_ahead first head, List.nil_append]
    rw [← grown]
    exact .inr (List.append_assoc _ _ _).symm
  | ended urlId rest first ready =>
    have known := orderly.pool urlId ready
    have new := Flow.front_of_ahead first head
    omega
  | lost urlId other reports rest report unfinished first =>
    have finished := orderly.finished urlId (by simp [report])
    rw [unfinished] at finished
    contradiction
  | sought urlId rest listed first known unknown =>
    rw [clean.sought_nothing orderly first unknown]
    exact .inl ⟨head, passing⟩
  | passed urlId rest first => simp [Flow.passing, first] at passing
  | added urlId rest first => simp [Flow.passing, first] at passing
  | _ => exact .inl ⟨head, passing⟩

/-- No move makes a request. Requests come from the user, and after the last of them there is none
pending. -/
theorem Move.starts_nil (move : Move media prefetch before after) (starts : before.starts = 0) :
    after.starts = 0 := by
  cases move with
  | started rest pending => omega
  | _ => exact starts

/-- While the request is pending nothing is on its way, so that only the request itself
brings an item, which then is the first. -/
theorem Move.first_given (move : Move media (fun flow => flow.starts = 0) before after)
    (clean : Clean old before) (orderly : Orderly old before) (starts : before.starts = 1)
    (failures : before.failures = 0) (counter : before.counter = old) (ahead : before.ahead = [])
    (passing : before.passing = []) :
    after.passing = [] ∧
      (after.starts = 1 ∧ after.failures = 0 ∧ after.counter = old ∧ after.ahead = [] ∨
        after.starts = 0 ∧ after.ahead.head? = some (old + 1)) := by
  have empty := ahead
  have still := passing
  simp only [Flow.ahead, List.append_eq_nil_iff] at empty
  simp only [Flow.passing, List.append_eq_nil_iff] at still
  obtain ⟨⟨⟨⟨listed, listing⟩, handed⟩, waiting⟩, asked⟩ := empty
  obtain ⟨⟨-, adding⟩, announced⟩ := still
  cases move with
  | started rest pending =>
    refine ⟨passing, .inr ⟨by simp only [Flow.ask]; omega, ?_⟩⟩
    simp only [Flow.ask, Flow.ahead, listed, listing, handed, waiting, asked, counter,
      List.nil_append, List.head?_cons]
  | prefetched allowed => omega
  | skipped rest pending => omega
  | retried rest pending => omega
  | closed urlId rest others first removed =>
    have none : others = [] := by simpa [waiting] using removed
    refine ⟨passing, .inl ⟨starts, failures, counter, ?_⟩⟩
    simp only [Flow.ahead, listed, listing, handed, none, asked, List.append_nil]
  | sought urlId rest others first known unknown =>
    rw [clean.sought_nothing orderly first unknown]
    exact ⟨passing, .inl ⟨starts, failures, counter, ahead⟩⟩
  | released | unmatched | stopped | played | starved =>
    exact ⟨passing, .inl ⟨starts, failures, counter, ahead⟩⟩
  | _ => simp_all only [reduceCtorEq]

/-- A move keeps the requested item first: while the request is pending, while the item is coming,
and once it has come to the output plugin. -/
theorem Stage.move (stage : Stage old before) (clean : Clean old before)
    (playable : Playable media (old + 1))
    (move : Move media (fun flow => flow.starts = 0) before after) : Stage old after := by
  cases stage with
  | requested starts failures counter ahead passing orderly =>
    obtain ⟨quiet, given⟩ := move.first_given clean orderly starts failures counter ahead passing
    have kept : Orderly old after := by
      refine orderly.move ?_ move passing quiet
      intro urlId rest first
      simp [Flow.ahead, first] at ahead
    rcases given with ⟨starts, failures, counter, ahead⟩ | ⟨starts, ahead⟩
    · exact .requested starts failures counter ahead quiet kept
    · exact .coming starts ahead quiet kept
  | coming starts ahead passing orderly =>
    rcases move.first_kept playable clean orderly passing ahead with ⟨first, quiet⟩ | come
    · refine .coming (move.starts_nil starts) first quiet ?_
      refine orderly.move ?_ move passing quiet
      intro urlId rest front
      obtain rfl := Flow.front_of_ahead front ahead
      exact ⟨Int.lt_succ old, playable.initApi⟩
    · exact .come (by rw [come]; rfl)
  | come passing =>
    rw [← List.singleton_prefix_iff_head?_eq_some] at passing
    exact .come (List.singleton_prefix_iff_head?_eq_some.mp (passing.trans move.passing_prefix))

/-- The item requested last is on its way, and nothing that was given before it. -/
structure Requested (old : Int) (flow : Flow) : Prop where
  clean : Clean old flow
  stage : Stage old flow

/-- While no progress report adds an item before the requested one, it stays so. -/
theorem Requested.moves (requested : Requested old before) (playable : Playable media (old + 1))
    (moves : Moves media (fun flow => flow.starts = 0) before after) : Requested old after := by
  refine moves.preserve ?_ requested
  intro before after requested move
  exact ⟨requested.clean.move move, requested.stage.move requested.clean playable move⟩

/-- Whatever the stage, the first track added to a queue is the one requested. -/
theorem Stage.first_added (stage : Stage old after) {first : Int}
    (added : after.added.head? = some first) : first = old + 1 := by
  have arrived : [first] <+: after.passing := by
    refine (List.singleton_prefix_iff_head?_eq_some.mpr added).trans ?_
    rw [Flow.passing, List.append_assoc]
    exact List.prefix_append _ _
  have head := List.singleton_prefix_iff_head?_eq_some.mp arrived
  cases stage with
  | requested starts failures counter ahead passing orderly =>
    simp [passing] at head
  | coming starts ahead passing orderly =>
    simp [passing] at head
  | come passing =>
    rw [passing] at head
    exact (Option.some.inj head).symm

end Mprt.TrackFlow
