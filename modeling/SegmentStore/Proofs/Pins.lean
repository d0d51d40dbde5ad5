import SegmentStore.Proofs.Confinement
import SegmentStore.Proofs.Numbering

/-!
# Pins on cached streams

Whoever holds a buffer of a cache has a pin on it, and gives it back when the buffer is dropped.

* `IndexBuffer.pinsOf` counts the pins of some buffers. `IndexRequest.loadStreams_pinned` is what loading indexes does
  to the pins of a cache, `SegmentReader.init_pinned` what opening a segment does, whether it fails or not.
* `CacheUsers` is a cache with the handles and the readers that use it. `CacheUsers.counted_after` is the step and
  `CacheUsers.pinned_eq_alive` the run: a cache counts the handles that are alive, and they see what they saw at first.
-/

namespace SegmentStore

/-! ### Counting pins -/

namespace IndexBuffer

/-- The pins that some buffers hold. -/
def pinsOf (bs : List IndexBuffer) : Nat := bs.countP isPinned

theorem pinsOf_append (bs cs : List IndexBuffer) : pinsOf (bs ++ cs) = pinsOf bs + pinsOf cs := List.countP_append

theorem pinsOf_cons (b : IndexBuffer) (bs : List IndexBuffer) : pinsOf (b :: bs) = pinsOf [b] + pinsOf bs :=
  pinsOf_append [b] bs

end IndexBuffer

open IndexBuffer

namespace IndexCache

theorem release_pinned (c : IndexCache) (b : IndexBuffer) : (c.release b).pinned = c.pinned - pinsOf [b] := by
  cases b <;> rfl

theorem releaseAll_pinned (c : IndexCache) (bs : List IndexBuffer) :
    (c.releaseAll bs).pinned = c.pinned - pinsOf bs := by
  induction bs generalizing c with
  | nil => rfl
  | cons b bs ih =>
    rw [releaseAll, List.foldl_cons, ← releaseAll, ih, release_pinned, pinsOf_cons b bs]
    omega

/-- A lookup that finds a stream adds a pin. -/
theorem lookup_pinned {c c' : IndexCache} {key : CacheKey} {b? : Option IndexBuffer} (h : c.lookup key = (b?, c')) :
    c'.pinned = c.pinned + pinsOf b?.toList := by
  rw [lookup] at h
  split at h <;> obtain ⟨rfl, rfl⟩ := Prod.mk.inj h <;> rfl

theorem insert_pinned (c : IndexCache) (key : CacheKey) (bs : Bytes) :
    (c.insert key bs).2.pinned = c.pinned + pinsOf [(c.insert key bs).1] := rfl

end IndexCache

namespace IndexSet

variable {α : Type}

/-- No column has two indexes of one kind. -/
structure Keyed (set : IndexSet) : Prop where
  zoneMaps : (set.zoneMaps.map (·.1)).Nodup
  blooms : (set.blooms.map (·.1)).Nodup

theorem nodup_put (uid : UniqueId) (x : α) {xs : List (UniqueId × α)} (h : (xs.map (·.1)).Nodup) :
    ((put uid x xs).map (·.1)).Nodup := by
  rw [put, List.map_cons, List.nodup_cons]
  refine ⟨fun hmem => ?_, h.sublist ((List.filter_sublist).map _)⟩
  obtain ⟨e, he, huid⟩ := List.mem_map.mp hmem
  exact absurd huid (by simpa using (List.mem_filter.mp he).2)

/-- What an index that takes the place of another one does to the pins: its own are added, those of the other one
go. -/
theorem pinsOf_put (uid : UniqueId) (x : Loaded α) {xs : List (UniqueId × Loaded α)} (h : (xs.map (·.1)).Nodup) :
    pinsOf ((put uid x xs).map (·.2.buffer)) + pinsOf ((xs.lookup uid).map (·.buffer)).toList
      = pinsOf (xs.map (·.2.buffer)) + pinsOf [x.buffer] := by
  rw [put, List.map_cons, pinsOf_cons]
  dsimp only
  suffices hrest : pinsOf ((xs.filter fun e => e.1 ≠ uid).map (·.2.buffer))
      + pinsOf ((xs.lookup uid).map (·.buffer)).toList = pinsOf (xs.map (·.2.buffer)) by omega
  induction xs with
  | nil => rfl
  | cons e xs ih =>
    obtain ⟨uid', y⟩ := e
    obtain ⟨hnew, hnodup⟩ := List.nodup_cons.mp h
    rw [List.map_cons, pinsOf_cons]
    by_cases huid : uid' = uid
    · -- the other indexes are of other columns
      subst huid
      have hothers : (xs.filter fun e => e.1 ≠ uid') = xs := by
        refine List.filter_eq_self.mpr fun e he => decide_eq_true fun hsame => ?_
        exact hnew (List.mem_map.mpr ⟨e, he, hsame⟩)
      rw [List.filter_cons_of_neg (by simp), hothers, List.lookup_cons_self, Nat.add_comm]
      rfl
    · have hne : (uid == uid') = false := beq_eq_false_iff_ne.mpr (Ne.symm huid)
      rw [List.filter_cons_of_pos (by simpa using huid), List.map_cons, pinsOf_cons, List.lookup_cons, hne,
        Nat.add_assoc, ih hnodup]

end IndexSet

/-! ### Loading indexes -/

namespace IndexRequest

variable {q : IndexRequest} {l : LocatedStream} {ls : List LocatedStream} {set set' : IndexSet}
variable {b : IndexBuffer} {cache cache' : IndexCache} {traffic traffic' : Traffic}

/-- A buffer brings its pin, and a failure brings none. -/
theorem buffer_pinned (q : IndexRequest) (l : LocatedStream) (cache : IndexCache) (traffic : Traffic) :
    (q.buffer l cache traffic).2.1.pinned
      = cache.pinned + pinsOf (q.buffer l cache traffic).1.toOption.toList := by
  rw [buffer]
  dsimp only
  generalize hfound : (if q.cached = true then _ else _ : Option IndexBuffer × IndexCache) = found
  obtain ⟨b?, cache₁⟩ := found
  have hlookup : cache₁.pinned = cache.pinned + pinsOf b?.toList := by
    split at hfound
    · exact IndexCache.lookup_pinned hfound
    · obtain ⟨rfl, rfl⟩ := Prod.mk.inj hfound
      rfl
  cases b? with
  | some b => exact hlookup
  | none =>
    dsimp only
    split
    · exact hlookup
    · split
      · exact (IndexCache.insert_pinned _ _ _).trans (by rw [hlookup]; rfl)
      · exact hlookup

/-- An index that is added holds the pin of its buffer, and one that it takes the place of has none any more. -/
theorem add_pinned (hset : set.Keyed) (h : q.add l b set = .ok set') :
    set'.Keyed ∧ pinsOf set'.buffers + pinsOf (replaced l set) = pinsOf set.buffers + pinsOf [b] := by
  rcases add_eq_ok h with ⟨hkind, type, entries, -, -, -, rfl⟩ | ⟨hkind, entries, -, rfl⟩
  · have hput := IndexSet.pinsOf_put l.info.uniqueId ⟨entries.toArray, b⟩ hset.zoneMaps
    refine ⟨⟨IndexSet.nodup_put _ _ hset.zoneMaps, hset.blooms⟩, ?_⟩
    rw [replaced, hkind, IndexSet.buffers, IndexSet.buffers, pinsOf_append, pinsOf_append, IndexSet.zoneMap?]
    dsimp only at hput ⊢
    omega
  · have hput := IndexSet.pinsOf_put l.info.uniqueId ⟨entries.toArray, b⟩ hset.blooms
    refine ⟨⟨hset.zoneMaps, IndexSet.nodup_put _ _ hset.blooms⟩, ?_⟩
    have hreplaced : replaced l set = ((set.blooms.lookup l.info.uniqueId).map (·.buffer)).toList := by
      rw [replaced]
      split
      · contradiction
      · rfl
    rw [hreplaced, IndexSet.buffers, IndexSet.buffers, pinsOf_append, pinsOf_append]
    dsimp only at hput ⊢
    omega

/-- The pins that a set of indexes holds, none if there is no set. -/
def pinsLeft (result : Except StorageError IndexSet) : Nat := pinsOf ((result.toOption.map (·.buffers)).getD [])

/-- Loading takes over the pins of the indexes that there are already. What is loaded in the end holds its pins, and
after a failure nothing holds any. -/
theorem loadStreams_pinned (q : IndexRequest) (ls : List LocatedStream) (hset : set.Keyed)
    (hheld : pinsOf set.buffers ≤ cache.pinned) (traffic : Traffic) :
    (q.loadStreams ls set cache traffic).2.1.pinned + pinsOf set.buffers
      = cache.pinned + pinsLeft (q.loadStreams ls set cache traffic).1 := by
  induction ls generalizing set cache traffic with
  | nil => rfl
  | cons l ls ih =>
    have hpinned := q.buffer_pinned l cache traffic
    rw [loadStreams]
    generalize q.buffer l cache traffic = found at hpinned ⊢
    obtain ⟨e | b, cache₁, traffic₁⟩ := found
    · have hnone : cache₁.pinned = cache.pinned := hpinned
      show (cache₁.releaseAll set.buffers).pinned + pinsOf set.buffers = cache.pinned + 0
      rw [IndexCache.releaseAll_pinned, hnone]
      omega
    · have hone : cache₁.pinned = cache.pinned + pinsOf [b] := hpinned
      dsimp only
      cases hadd : q.add l b set with
      | error e =>
        show (cache₁.releaseAll (b :: set.buffers)).pinned + pinsOf set.buffers = cache.pinned + 0
        rw [IndexCache.releaseAll_pinned, hone, pinsOf_cons b set.buffers]
        omega
      | ok set₁ =>
        -- the pin of the new index is there, that of one in whose place it is goes
        obtain ⟨hkeyed, hbalance⟩ := add_pinned hset hadd
        have hreleased : (cache₁.releaseAll (replaced l set)).pinned = cache₁.pinned - pinsOf (replaced l set) :=
          IndexCache.releaseAll_pinned _ _
        have hheld₁ : pinsOf set₁.buffers ≤ (cache₁.releaseAll (replaced l set)).pinned := by omega
        have hlater := ih hkeyed hheld₁ traffic₁
        dsimp only
        omega

/-- The indexes of a segment hold the pins that loading them has added. -/
theorem load_pinned (q : IndexRequest) (cache : IndexCache) :
    (q.load cache).2.1.pinned = cache.pinned + pinsLeft (q.load cache).1 := by
  have hkeyed : q.emptySet.Keyed := ⟨List.nodup_nil, List.nodup_nil⟩
  rw [load_eq]
  split
  · exact q.loadStreams_pinned _ hkeyed (Nat.zero_le _) .zero
  · rfl

end IndexRequest

/-! ### Opening a segment -/

namespace SegmentReader

/-- A reader that is initialised holds the pins of its indexes, and no others any more. A failure changes no pin. -/
theorem init_pinned (r : SegmentReader) (fillCache : Bool) (g : SegmentGroup) (cache : IndexCache)
    (stats : ScanStatistics) (hheld : pinsOf r.buffers ≤ cache.pinned) :
    (r.init fillCache g cache stats).cache.pinned + pinsOf r.buffers
      = cache.pinned + pinsOf (r.init fillCache g cache stats).reader.buffers := by
  rw [init]
  split
  · rfl
  split
  · rfl
  split
  · rfl
  dsimp only
  generalize hrequest : ({ .. } : IndexRequest) = q
  have hpinned := q.load_pinned cache
  rcases hload : q.load cache with ⟨e | indexes, cache', traffic⟩ <;> rw [hload] at hpinned
  · have hnone : cache'.pinned = cache.pinned := hpinned
    show cache'.pinned + pinsOf r.buffers = cache.pinned + pinsOf r.buffers
    rw [hnone]
  · have hsome : cache'.pinned = cache.pinned + pinsOf indexes.buffers := hpinned
    show (cache'.releaseAll r.buffers).pinned + pinsOf r.buffers = cache.pinned + pinsOf indexes.buffers
    rw [IndexCache.releaseAll_pinned, hsome]
    omega

end SegmentReader

/-! ### The users of a cache -/

/-- Someone who may hold buffers of a cache: a handle is one, a reader has those of its indexes. -/
inductive CacheUser
  | handle (buffer : IndexBuffer)
  | reader (reader : SegmentReader)

def CacheUser.buffers : CacheUser → List IndexBuffer
  | .handle b => [b]
  | .reader r => r.buffers

/-- A cache and its users, by their numbers. Whoever was dropped leaves an empty place. -/
structure CacheUsers where
  cache : IndexCache
  users : List (Option CacheUser)

namespace CacheUsers

/-- What happens to a cache and its users. -/
inductive Step
  /-- A stream is put into the cache, and a handle taken. -/
  | insert (key : CacheKey) (bytes : Bytes)
  /-- A handle is taken, if the cache has the stream. -/
  | lookup (key : CacheKey)
  /-- There is a new reader, not yet initialised. -/
  | openReader (segmentId : UInt32) (context : ReadContext)
  /-- A reader is initialised, for the first time or again. -/
  | init (n : Nat) (fillCache : Bool) (group : SegmentGroup) (stats : ScanStatistics)
  /-- A handle or a reader is dropped. -/
  | drop (n : Nat)

/-- Nobody uses the cache, and it is empty. -/
def empty : CacheUsers := ⟨.empty, []⟩

def user? (w : CacheUsers) (n : Nat) : Option CacheUser := w.users[n]?.join

/-- The buffers of those who are in a place. -/
def buffersIn (u? : Option CacheUser) : List IndexBuffer := (u?.map CacheUser.buffers).getD []

/-- The buffers that a user holds, none if it was dropped. -/
def buffersOf (w : CacheUsers) (n : Nat) : List IndexBuffer := buffersIn (w.user? n)

/-- The handles that are alive, alone or within a reader. -/
def alive (w : CacheUsers) : Nat := pinsOf (w.users.flatMap buffersIn)

/-- One more user comes. -/
def join (w : CacheUsers) (u : CacheUser) (cache : IndexCache) : CacheUsers := ⟨cache, w.users ++ [some u]⟩

/-- The cache and its users after a step. A step of a user that is not there, or no reader, changes nothing. -/
def after (w : CacheUsers) : Step → CacheUsers
  | .insert key bytes =>
    let (b, cache) := w.cache.insert key bytes
    w.join (.handle b) cache
  | .lookup key =>
    match w.cache.lookup key with
    | (some b, cache) => w.join (.handle b) cache
    | (none, cache) => { w with cache }
  | .openReader segmentId context => w.join (.reader (.make segmentId context)) w.cache
  | .init n fillCache g stats =>
    match w.user? n with
    | some (.reader r) =>
      let i := r.init fillCache g w.cache stats
      ⟨i.cache, w.users.set n (some (.reader i.reader))⟩
    | _ => w
  | .drop n => ⟨w.cache.releaseAll (w.buffersOf n), w.users.set n none⟩

/-- The cache and its users after some steps. -/
def afterAll (w : CacheUsers) (steps : List Step) : CacheUsers := steps.foldl after w

/-- The step takes the buffers of a user away: it is dropped, or a reader that gets new ones. -/
def Frees (w : CacheUsers) (n : Nat) : Step → Prop
  | .init m fillCache g stats =>
    m = n ∧ ∃ r, w.user? m = some (.reader r) ∧ (r.init fillCache g w.cache stats).result = .ok ()
  | .drop m => m = n
  | _ => False

/-- No step takes the buffers of a user away. -/
def Keeps (w : CacheUsers) (n : Nat) : List Step → Prop
  | [] => True
  | s :: steps => ¬w.Frees n s ∧ (w.after s).Keeps n steps

variable {w : CacheUsers} {n : Nat} {u : CacheUser}

theorem getElem?_of_user? (h : w.user? n = some u) : w.users[n]? = some (some u) := by
  exact Option.join_eq_some_iff.mp h

/-- What a change in one place does to the pins. -/
theorem pinsOf_set {us : List (Option CacheUser)} {u? : Option CacheUser} (h : us[n]? = some u?)
    (u?' : Option CacheUser) :
    pinsOf ((us.set n u?').flatMap buffersIn) + pinsOf (buffersIn u?)
      = pinsOf (us.flatMap buffersIn) + pinsOf (buffersIn u?') := by
  induction us generalizing n with
  | nil => cases h
  | cons v us ih =>
    cases n with
    | zero =>
      obtain rfl : v = u? := Option.some.inj h
      rw [List.set_cons_zero, List.flatMap_cons, List.flatMap_cons, pinsOf_append, pinsOf_append]
      omega
    | succ n =>
      have hrest := ih h
      rw [List.set_cons_succ, List.flatMap_cons, List.flatMap_cons, pinsOf_append, pinsOf_append]
      omega

theorem alive_join (w : CacheUsers) (u : CacheUser) (cache : IndexCache) :
    (w.join u cache).alive = w.alive + pinsOf u.buffers := by
  rw [join, alive, List.flatMap_append, pinsOf_append, List.flatMap_singleton, alive]
  rfl

/-- The cache counts the handles that are alive. -/
def Counted (w : CacheUsers) : Prop := w.cache.pinned = w.alive

theorem Counted.join (h : w.Counted) {cache : IndexCache} (hcache : cache.pinned = w.cache.pinned + pinsOf u.buffers) :
    (w.join u cache).Counted := by
  rw [Counted, alive_join, ← h]
  exact hcache

/-- The pins of a user are among those that the cache counts. -/
theorem Counted.pinsOf_le (h : w.Counted) (hu : w.user? n = some u) : pinsOf u.buffers ≤ w.cache.pinned := by
  have hdropped : pinsOf ((w.users.set n none).flatMap buffersIn) + pinsOf u.buffers
      = pinsOf (w.users.flatMap buffersIn) + 0 := pinsOf_set (getElem?_of_user? hu) none
  rw [h, alive]
  omega

theorem Counted.init (h : w.Counted) {r : SegmentReader} (hr : w.user? n = some (.reader r)) (fillCache : Bool)
    (g : SegmentGroup) (stats : ScanStatistics) : (w.after (.init n fillCache g stats)).Counted := by
  have hpinned := r.init_pinned fillCache g w.cache stats (h.pinsOf_le hr)
  have hset := pinsOf_set (getElem?_of_user? hr) (some (.reader (r.init fillCache g w.cache stats).reader))
  rw [Counted, alive] at h
  simp only [after, hr, Counted, alive]
  simp only [buffersIn, Option.map_some, Option.getD_some, CacheUser.buffers] at hset h ⊢
  omega

theorem Counted.drop (h : w.Counted) (n : Nat) : (w.after (.drop n)).Counted := by
  rw [Counted, alive] at h
  rw [Counted, after, IndexCache.releaseAll_pinned, alive, buffersOf, user?]
  cases hplace : w.users[n]? with
  | none =>
    rw [List.set_eq_of_length_le (List.getElem?_eq_none_iff.mp hplace)]
    exact h
  | some u? =>
    have hset := pinsOf_set hplace none
    have hnone : pinsOf (buffersIn none) = 0 := rfl
    rw [Option.join_some]
    dsimp only
    omega

/-- Every step takes and gives back as many pins as the handles that come and go. -/
theorem counted_after (h : w.Counted) (s : Step) : (w.after s).Counted := by
  cases s with
  | insert key bytes => exact h.join rfl
  | lookup key =>
    rw [after]
    rcases hlookup : w.cache.lookup key with ⟨_ | b, cache⟩ <;>
      have hpinned := IndexCache.lookup_pinned hlookup
    · exact hpinned.trans h
    · exact h.join hpinned
  | openReader segmentId context => exact h.join rfl
  | init n fillCache g stats =>
    cases hu : w.user? n with
    | none =>
      simp only [after, hu]
      exact h
    | some u =>
      cases u with
      | handle b =>
        simp only [after, hu]
        exact h
      | reader r => exact h.init hu fillCache g stats
  | drop n => exact h.drop n

theorem counted_afterAll (h : w.Counted) (steps : List Step) : (w.afterAll steps).Counted := by
  induction steps generalizing w with
  | nil => exact h
  | cons s steps ih => exact ih (counted_after h s)

/-! ### What a handle sees -/

theorem user?_join (h : w.user? n = some u) (u' : CacheUser) (cache : IndexCache) :
    (w.join u' cache).user? n = some u := by
  have hplace := getElem?_of_user? h
  rw [user?, join, List.getElem?_append_left (List.getElem?_eq_some_iff.mp hplace).1, hplace]
  rfl

theorem user?_set_of_ne {m : Nat} (hne : m ≠ n) (u? : Option CacheUser) (cache : IndexCache) :
    (⟨cache, w.users.set m u?⟩ : CacheUsers).user? n = w.user? n := by
  rw [user?, user?, List.getElem?_set_ne hne]

/-- A step that does not take the buffers of a user away leaves it with the very same ones. -/
theorem buffers_after (h : w.user? n = some u) {s : Step} (hkept : ¬w.Frees n s) :
    ∃ u', (w.after s).user? n = some u' ∧ u'.buffers = u.buffers := by
  cases s with
  | insert key bytes => exact ⟨u, user?_join h _ _, rfl⟩
  | lookup key =>
    rw [after]
    rcases w.cache.lookup key with ⟨_ | b, cache⟩
    · exact ⟨u, h, rfl⟩
    · exact ⟨u, user?_join h _ _, rfl⟩
  | openReader segmentId context => exact ⟨u, user?_join h _ _, rfl⟩
  | init m fillCache g stats =>
    by_cases hm : m = n
    · subst hm
      cases u with
      | handle b =>
        simp only [after, h]
        exact ⟨_, rfl, rfl⟩
      | reader r =>
        -- it failed, and left the reader as it was
        rcases SegmentReader.init_cases r fillCache g w.cache stats with ⟨-, hsame⟩ | ⟨hok, -⟩
        · simp only [after, h, hsame]
          refine ⟨.reader r, ?_, rfl⟩
          rw [user?, List.getElem?_set_self (List.getElem?_eq_some_iff.mp (getElem?_of_user? h)).1]
          rfl
        · exact absurd ⟨rfl, r, h, hok⟩ hkept
    · rw [after]
      split
      · exact ⟨u, (user?_set_of_ne hm _ _).trans h, rfl⟩
      · exact ⟨u, h, rfl⟩
  | drop m => exact ⟨u, (user?_set_of_ne hkept _ _).trans h, rfl⟩

theorem buffersOf_afterAll (h : w.user? n = some u) {steps : List Step} (hkept : w.Keeps n steps) :
    (w.afterAll steps).buffersOf n = u.buffers := by
  induction steps generalizing w u with
  | nil =>
    show buffersIn (w.user? n) = u.buffers
    rw [h]
    rfl
  | cons s steps ih =>
    obtain ⟨u', hu', hsame⟩ := buffers_after h hkept.1
    exact (ih hu' hkept.2).trans hsame

/-! ### Runs -/

/-- After any steps the cache counts the handles that are alive. Initialising a reader changes no pin if it fails. And
the buffers that a user holds, with their bytes, are the same as long as it keeps them, whatever comes into the cache
under their keys. -/
theorem pinned_eq_alive (steps later : List Step) :
    let w := empty.afterAll steps
    w.cache.pinned = w.alive
      ∧ (∀ n r fillCache g stats e, w.user? n = some (.reader r) →
          (r.init fillCache g w.cache stats).result = .error e →
            (w.after (.init n fillCache g stats)).cache.pinned = w.cache.pinned)
      ∧ ∀ n u, w.user? n = some u → w.Keeps n later → (w.afterAll later).buffersOf n = u.buffers := by
  intro w
  have hempty : empty.Counted := rfl
  have hcounted : w.Counted := counted_afterAll hempty steps
  refine ⟨hcounted, fun n r fillCache g stats e hr hfails => ?_, fun n u hu hkept => buffersOf_afterAll hu hkept⟩
  rcases SegmentReader.init_cases r fillCache g w.cache stats with ⟨-, hsame⟩ | ⟨hok, -⟩
  · have hpinned := r.init_pinned fillCache g w.cache stats (hcounted.pinsOf_le hr)
    rw [hsame] at hpinned
    simp only [after, hr]
    omega
  · rw [hok] at hfails
    cases hfails

/-- Two handles of one stream and a reader whose segment does not exist. The second handle sees what it saw at first,
though another stream takes the place of the one it was taken from, and the first one is dropped. -/
theorem pinned_eq_alive_twoHandles :
    let key : CacheKey := ⟨"t/0.dat", 10, .rowIndex⟩
    let context : ReadContext := ⟨[], [], none, none, .unknown, true, .default⟩
    let group : SegmentGroup := ⟨"t", ⟨[]⟩, 0, 2, .empty, [], .standard⟩
    let w := empty.afterAll [.insert key [1, 2], .lookup key, .openReader 0 context]
    let later : List Step := [.insert key [3], .drop 0]
    w.cache.pinned = 2 ∧ w.alive = 2
      ∧ (w.after (.init 2 true group .zero)).cache.pinned = 2
      ∧ (w.afterAll later).cache.pinned = 2
      ∧ (w.afterAll later).cache.lookup key = (some (.pinned [3]), ⟨[(key, [3])], 3⟩)
      ∧ (w.afterAll later).buffersOf 1 = [.pinned [1, 2]] := by
  intro key context group w later
  obtain ⟨hcounted, hfailed, hsame⟩ := pinned_eq_alive [.insert key [1, 2], .lookup key, .openReader 0 context] later
  have hpinned : w.cache.pinned = 2 := rfl
  have hkept : w.Keeps 1 later := ⟨id, Nat.zero_ne_one, trivial⟩
  exact ⟨hpinned, hcounted.symm.trans hpinned, (hfailed 2 _ true group .zero .io rfl rfl).trans hpinned, rfl, rfl,
    hsame 1 _ rfl hkept⟩

end CacheUsers

end SegmentStore
