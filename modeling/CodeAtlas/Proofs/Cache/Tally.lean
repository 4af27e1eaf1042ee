import CodeAtlas.Proofs.Cache.History
import CodeAtlas.Proofs.Cache.Noted
import Mathlib.Algebra.GroupWithZero.Nat

/-! What the counters of a cache tell. Whatever uses of the store fail, every call has its answer, and
the counters are the totals of the answers, of the expired entries that lookups removed, and of the
uses that failed. -/

namespace CodeAtlas

/-! ## Answers -/

/-- A lookup tells one event, which agrees with what it found. -/
def Lookup.Tells (scope : Scope) (file : String) (lookup : Lookup) : Prop :=
  lookup.events = [if lookup.result.isSome then .cacheHit file scope.branch
    else .cacheMiss file scope.branch]

/-- What a call on a cache answers. -/
inductive CacheReply where
  | stored (done : Bool)
  | found (lookup : Lookup)
  | removed (count : Nat)

namespace CacheReply

def isHit : CacheReply → Bool
  | found lookup => lookup.result.isSome
  | _ => false

def isMiss : CacheReply → Bool
  | found lookup => lookup.result.isNone
  | _ => false

def isStored : CacheReply → Bool
  | stored done => done
  | _ => false

/-- The number of entries that a call says it removed. -/
def count : CacheReply → Nat
  | removed count => count
  | _ => 0

/-- The answer is of the kind that the call has, and no error. -/
def Fits (call : CacheCall) (reply : CacheReply) : Prop :=
  match call.op with
  | .set .. => ∃ done, reply = stored done
  | .get scope file _ => ∃ lookup, reply = found lookup ∧ lookup.Tells scope file
  | .invalidateFile .. | .invalidateBranch _ | .clear | .enforceCapacity _ =>
    ∃ count, reply = removed count

end CacheReply

def CacheOp.isGet : CacheOp → Bool
  | get .. => true
  | _ => false

namespace Cache

variable {σ : Type}

/-- The answer to a call, and the state after it. -/
def answer (cache : Cache σ) (s : CacheState σ) (call : CacheCall) : CacheReply × CacheState σ :=
  match call.op with
  | .set scope file content result =>
    (cache.set call.now scope file content result s).map .stored id
  | .get scope file content => (cache.get call.now scope file content s).map .found id
  | .invalidateFile file root => (cache.invalidateFile file root s).map .removed id
  | .invalidateBranch branch => (cache.invalidateBranch branch s).map .removed id
  | .clear => (cache.clear s).map .removed id
  | .enforceCapacity limit => (cache.enforceCapacity limit s).map .removed id

/-- The answers to some calls, and the state after them. -/
def answers (cache : Cache σ) : List CacheCall → CacheState σ → List CacheReply × CacheState σ
  | [], s => ([], s)
  | call :: calls, s =>
    let (reply, s) := cache.answer s call
    let (replies, s) := cache.answers calls s
    (reply :: replies, s)

theorem answer_snd (cache : Cache σ) (s : CacheState σ) (call : CacheCall) :
    (cache.answer s call).2 = cache.step s call := by
  obtain ⟨now, op⟩ := call
  cases op <;> rfl

theorem answers_snd (cache : Cache σ) (calls : List CacheCall) (s : CacheState σ) :
    (cache.answers calls s).2 = calls.foldl cache.step s := by
  induction calls generalizing s with
  | nil => rfl
  | cons call calls ih =>
      simp only [answers, ih, answer_snd, List.foldl_cons]

/-- Over a store that follows another one, a call has the same answer. -/
theorem answer_through {τ : Type} {view : τ → σ} {outer : Cache τ} {inner : Cache σ}
    (h : outer.Follows view inner) (s : CacheState τ) (call : CacheCall) :
    (outer.answer s call).1 = (inner.answer (s.through view) call).1 ∧
      (outer.answer s call).2.through view = (inner.answer (s.through view) call).2 := by
  obtain ⟨now, op⟩ := call
  cases op with
  | set scope file content result =>
      obtain ⟨hanswer, hafter⟩ := set_through h s now scope file content result
      exact ⟨congrArg CacheReply.stored hanswer, hafter⟩
  | get scope file content =>
      obtain ⟨hanswer, hafter⟩ := get_through h s now scope file content
      exact ⟨congrArg CacheReply.found hanswer, hafter⟩
  | invalidateFile file root =>
      obtain ⟨hanswer, hafter⟩ :=
        removeWhere_through h s fun entry => entry.file == file && entry.root == root
      exact ⟨congrArg CacheReply.removed hanswer, hafter⟩
  | invalidateBranch branch =>
      obtain ⟨hanswer, hafter⟩ := removeWhere_through h s fun entry => entry.branch == branch
      exact ⟨congrArg CacheReply.removed hanswer, hafter⟩
  | clear =>
      obtain ⟨hanswer, hafter⟩ := clear_through h s
      exact ⟨congrArg CacheReply.removed hanswer, hafter⟩
  | enforceCapacity limit =>
      obtain ⟨hanswer, hafter⟩ := enforceCapacity_through h s limit
      exact ⟨congrArg CacheReply.removed hanswer, hafter⟩

/-- The number of expired entries that a call finds on a lookup and removes. -/
def expiredBy (cache : Cache σ) (s : CacheState σ) (call : CacheCall) : Nat :=
  match call.op, cache.store with
  | .get scope file content, some store =>
    match store.read (scope.key file content) s.place with
    | (.ok (some entry), place) =>
      if entry.isExpired call.now cache.maxAge then
        match (store.delete (scope.key file content) place).1 with
        | .ok true => 1
        | _ => 0
      else 0
    | _ => 0
  | _, _ => 0

/-- The number of expired entries that some calls find on lookups and remove. -/
def expiredIn (cache : Cache σ) : List CacheCall → CacheState σ → Nat
  | [], _ => 0
  | call :: calls, s => cache.expiredBy s call + cache.expiredIn calls (cache.step s call)

/-- The uses that some calls make of the store. -/
def usesIn (cache : Cache σ) (calls : List CacheCall) (s : CacheState σ) : List UseNote :=
  (cache.noted.answers calls ⟨(s.place, []), s.counters⟩).2.place.2

/-! ## Notes and counters -/

/-- The failures that a cache counted are those that its store noted, and so are the removals, of which
`pending` are not counted yet. -/
structure Balanced (pending : Nat) (s : CacheState (Noted σ)) : Prop where
  errors_eq : s.counters.errors = s.place.2.countP (·.outcome = .failed)
  deletes_eq : s.counters.deletes + pending = s.place.2.countP (·.outcome = .removed)

section Balanced

variable {α : Type} {s : CacheState (Noted σ)} {pending : Nat} (h : Balanced pending s)
include h

theorem Balanced.call (action : Store.Action) (removes : α → Bool) (use : Use σ α) :
    Balanced (pending + if (s.call (use.noted action removes)).1.any removes then 1 else 0)
      (s.call (use.noted action removes)).2 := by
  obtain ⟨herrors, hdeletes⟩ := h
  rcases huse : use s.place.1 with ⟨e | answer, place⟩
  · simp only [CacheState.call, Use.noted, huse]
    constructor
    · simp [herrors, UseOutcome.of]
    · simp [hdeletes, UseOutcome.of]
  · simp only [CacheState.call, Use.noted, huse]
    by_cases hremoves : removes answer = true
    · constructor
      · simp [herrors, UseOutcome.of, hremoves]
      · simp [← hdeletes, UseOutcome.of, hremoves, Nat.add_assoc]
    · constructor
      · simp [herrors, UseOutcome.of, hremoves]
      · simp [hdeletes, UseOutcome.of, hremoves]

/-- A use that removes nothing. -/
theorem Balanced.quiet (action : Store.Action) (use : Use σ α) :
    Balanced pending (s.call (use.noted action fun _ => false)).2 := by
  simpa using h.call action (fun _ => false) use

variable (store : Store σ)

theorem Balanced.delete (key : String) :
    Balanced (pending + if (s.call (store.noted.delete key)).1 == some true then 1 else 0)
      (s.call (store.noted.delete key)).2 := by
  have hany : ∀ gone : Option Bool, gone.any id = (gone == some true) := by
    rintro (_ | _ | _) <;> rfl
  have hcall := h.call .delete id (store.delete key)
  rwa [hany] at hcall

theorem balanced_readAll (keys : List String) :
    Balanced pending (readAll store.noted keys s).2 := by
  induction keys generalizing s with
  | nil => exact h
  | cons key keys ih => exact ih (h.quiet .read (store.read key))

theorem balanced_entries : Balanced pending (entries store.noted s).2 :=
  balanced_readAll (h.quiet .keys store.keys) store _

theorem balanced_removeEach (keys : List String) :
    Balanced (pending + (removeEach store.noted keys s).1) (removeEach store.noted keys s).2 := by
  induction keys generalizing s pending with
  | nil => exact h
  | cons key keys ih =>
      have hrest := ih (h.delete store key)
      simp only [removeEach]
      rwa [Nat.add_comm (removeEach ..).1, ← Nat.add_assoc]

end Balanced

/-! ## Balance of single calls -/

section Calls

variable {s : CacheState (Noted σ)} (h : Balanced 0 s) (store : Store σ)
include h

theorem balanced_removeAll (keys : List String) :
    Balanced 0 (removeAll store.noted keys s).2 := by
  have heach := balanced_removeEach h store keys
  rw [Nat.zero_add] at heach
  exact ⟨heach.errors_eq, heach.deletes_eq⟩

theorem balanced_drop (key : String) : Balanced 0 (drop store.noted key s) := by
  have hdelete := h.delete store key
  simp only [drop]
  split
  · rename_i hgone
    rw [if_pos hgone] at hdelete
    exact ⟨hdelete.errors_eq, hdelete.deletes_eq⟩
  · rename_i hgone
    rwa [if_neg hgone] at hdelete

theorem balanced_get (cache : Cache σ) (now : Nat) (scope : Scope) (file : String)
    (content : Bytes) : Balanced 0 (cache.noted.get now scope file content s).2 := by
  obtain ⟨_ | store, maxAge⟩ := cache
  · exact ⟨h.errors_eq, h.deletes_eq⟩
  · have hread := h.quiet .read (store.read (scope.key file content))
    rw [noted_some]
    simp only [get]
    split
    · exact ⟨hread.errors_eq, hread.deletes_eq⟩
    · rename_i entry _
      by_cases hexpired : entry.isExpired now maxAge = true
      · have hdrop := balanced_drop hread store (scope.key file content)
        rw [if_pos hexpired]
        exact ⟨hdrop.errors_eq, hdrop.deletes_eq⟩
      · have hwrite := hread.quiet .write (store.write (entry.touched now))
        rw [if_neg hexpired]
        exact ⟨hwrite.errors_eq, hwrite.deletes_eq⟩

theorem balanced_set (cache : Cache σ) (now : Nat) (scope : Scope) (file : String)
    (content : Bytes) (result : ParseResult) :
    Balanced 0 (cache.noted.set now scope file content result s).2 := by
  obtain ⟨_ | store, maxAge⟩ := cache
  · exact h
  · have hwrite : Balanced 0
        (s.call (store.noted.write (entryOf now scope file content result))).2 :=
      h.quiet .write _
    rw [noted_some]
    simp only [set]
    rcases hcall : s.call (store.noted.write (entryOf now scope file content result)) with
      ⟨_ | _, after⟩
    · rwa [hcall] at hwrite
    · rw [hcall] at hwrite
      exact ⟨hwrite.errors_eq, hwrite.deletes_eq⟩

theorem balanced_removeWhere (cache : Cache σ) (p : CacheEntry → Bool) :
    Balanced 0 (cache.noted.removeWhere p s).2 := by
  obtain ⟨_ | store, maxAge⟩ := cache
  · exact h
  · exact balanced_removeAll (balanced_entries h store) store _

theorem balanced_clear (cache : Cache σ) : Balanced 0 (cache.noted.clear s).2 := by
  obtain ⟨_ | store, maxAge⟩ := cache
  · exact h
  · have hkeys := h.quiet .keys store.keys
    rw [noted_some]
    simp only [clear]
    split
    · exact hkeys
    · exact balanced_removeAll hkeys store _

theorem balanced_enforceCapacity (cache : Cache σ) (limit : Nat) :
    Balanced 0 (cache.noted.enforceCapacity limit s).2 := by
  obtain ⟨_ | store, maxAge⟩ := cache
  · exact h
  · exact balanced_removeAll (balanced_entries h store) store _

/-- Failures and removals are counted as soon as a call is over. -/
theorem balanced_step (cache : Cache σ) (call : CacheCall) :
    Balanced 0 (cache.noted.step s call) := by
  obtain ⟨now, op⟩ := call
  cases op with
  | set scope file content result => exact balanced_set h cache now scope file content result
  | get scope file content => exact balanced_get h cache now scope file content
  | invalidateFile file root => exact balanced_removeWhere h cache _
  | invalidateBranch branch => exact balanced_removeWhere h cache _
  | clear => exact balanced_clear h cache
  | enforceCapacity limit => exact balanced_enforceCapacity h cache limit

end Calls

theorem balanced_answers (cache : Cache σ) (calls : List CacheCall) {s : CacheState (Noted σ)}
    (h : Balanced 0 s) : Balanced 0 (cache.noted.answers calls s).2 := by
  induction calls generalizing s with
  | nil => exact h
  | cons call calls ih =>
      have hstep := balanced_step h cache call
      rw [← answer_snd] at hstep
      exact ih hstep

/-! ## Answers and counters -/

section Counters

/-- The counters without the failures. -/
def told (c : CacheCounters) : CacheCounters := { c with errors := 0 }

variable (s : CacheState σ) (store : Store σ)

theorem told_call {α : Type} (use : Use σ α) : told (s.call use).2.counters = told s.counters := by
  unfold CacheState.call
  rcases use s.place with ⟨_ | _, _⟩ <;> rfl

theorem told_readAll (keys : List String) :
    told (readAll store keys s).2.counters = told s.counters := by
  induction keys generalizing s with
  | nil => rfl
  | cons key keys ih => exact (ih _).trans (told_call s _)

theorem told_entries : told (entries store s).2.counters = told s.counters :=
  (told_readAll _ store _).trans (told_call s _)

theorem told_removeEach (keys : List String) :
    told (removeEach store keys s).2.counters = told s.counters := by
  induction keys generalizing s with
  | nil => rfl
  | cons key keys ih => exact (ih _).trans (told_call s _)

end Counters

/-- The counters with what an answer adds to them. -/
def adding (reply : CacheReply) (expired : Nat) (c : CacheCounters) : CacheCounters where
  hits := c.hits + if reply.isHit then 1 else 0
  misses := c.misses + if reply.isMiss then 1 else 0
  writes := c.writes + if reply.isStored then 1 else 0
  deletes := c.deletes + (reply.count + expired)
  errors := c.errors

section Calls

variable (cache : Cache σ) (s : CacheState σ)

theorem told_set (now : Nat) (scope : Scope) (file : String) (content : Bytes)
    (result : ParseResult) :
    let (done, after) := cache.set now scope file content result s
    told after.counters = adding (.stored done) 0 (told s.counters) := by
  obtain ⟨_ | store, maxAge⟩ := cache
  · rfl
  · have hwrite := told_call s (store.write (entryOf now scope file content result))
    simp only [set]
    rcases hcall : s.call (store.write (entryOf now scope file content result)) with
      ⟨_ | _, after⟩
    · rw [hcall] at hwrite
      exact hwrite
    · rw [hcall] at hwrite
      rw [← hwrite]
      rfl

theorem told_get (now : Nat) (scope : Scope) (file : String) (content : Bytes) :
    let (lookup, after) := cache.get now scope file content s
    told after.counters = adding (.found lookup)
      (cache.expiredBy s ⟨now, .get scope file content⟩) (told s.counters) := by
  obtain ⟨_ | store, maxAge⟩ := cache
  · rfl
  · rcases hread : store.read (scope.key file content) s.place with ⟨_ | _ | entry, place⟩
    · simp only [get, expiredBy, CacheState.call, hread]
      rfl
    · simp only [get, expiredBy, CacheState.call, hread]
      rfl
    · simp only [get, expiredBy, CacheState.call, hread, Option.join_some]
      by_cases hexpired : entry.isExpired now maxAge = true
      · simp only [hexpired, if_true]
        rcases hdelete : store.delete (scope.key file content) place with ⟨_ | _ | _, after⟩ <;>
          simp only [drop, CacheState.call, hdelete] <;> rfl
      · simp only [hexpired, if_false, Bool.false_eq_true]
        have hwrite := told_call ⟨place, s.counters⟩ (store.write (entry.touched now))
        simp only [hit]
        change _ = adding _ 0 (told (CacheState.mk place s.counters).counters)
        rw [← hwrite]
        rfl

theorem told_removeAll (store : Store σ) (keys : List String) :
    let (count, after) := removeAll store keys s
    told after.counters = adding (.removed count) 0 (told s.counters) := by
  have heach := told_removeEach s store keys
  simp only [removeAll]
  rw [← heach]
  rfl

theorem told_removeWhere (p : CacheEntry → Bool) :
    let (count, after) := cache.removeWhere p s
    told after.counters = adding (.removed count) 0 (told s.counters) := by
  obtain ⟨_ | store, maxAge⟩ := cache
  · rfl
  · rw [← told_entries s store]
    exact told_removeAll _ store _

theorem told_clear :
    let (count, after) := cache.clear s
    told after.counters = adding (.removed count) 0 (told s.counters) := by
  obtain ⟨_ | store, maxAge⟩ := cache
  · rfl
  · have hkeys := told_call s store.keys
    simp only [clear]
    split
    · exact hkeys
    · rw [← hkeys]
      exact told_removeAll _ store _

theorem told_enforceCapacity (limit : Nat) :
    let (count, after) := cache.enforceCapacity limit s
    told after.counters = adding (.removed count) 0 (told s.counters) := by
  obtain ⟨_ | store, maxAge⟩ := cache
  · rfl
  · rw [← told_entries s store]
    exact told_removeAll _ store _

/-- The step lemma: the counters grow by what the call answers. -/
theorem told_step (call : CacheCall) :
    told (cache.step s call).counters =
      adding (cache.answer s call).1 (cache.expiredBy s call) (told s.counters) := by
  obtain ⟨now, op⟩ := call
  cases op with
  | set scope file content result => exact told_set cache s now scope file content result
  | get scope file content => exact told_get cache s now scope file content
  | invalidateFile file root => exact told_removeWhere cache s _
  | invalidateBranch branch => exact told_removeWhere cache s _
  | clear => exact told_clear cache s
  | enforceCapacity limit => exact told_enforceCapacity cache s limit

theorem tells_get (now : Nat) (scope : Scope) (file : String) (content : Bytes) :
    (cache.get now scope file content s).1.Tells scope file := by
  obtain ⟨_ | store, maxAge⟩ := cache
  · exact rfl
  · simp only [get]
    split
    · exact rfl
    · rename_i entry _
      by_cases hexpired : entry.isExpired now maxAge = true
      · rw [if_pos hexpired]
        exact rfl
      · rw [if_neg hexpired]
        exact rfl

theorem fits_answer (call : CacheCall) : (cache.answer s call).1.Fits call := by
  obtain ⟨now, op⟩ := call
  cases op with
  | get scope file content => exact ⟨_, rfl, tells_get cache s now scope file content⟩
  | _ => exact ⟨_, rfl⟩

/-- An answer is a hit or a miss if the call is a lookup, and neither otherwise. -/
theorem isHit_add_isMiss (call : CacheCall) :
    ((if (cache.answer s call).1.isHit then 1 else 0) +
      if (cache.answer s call).1.isMiss then 1 else 0) = if call.op.isGet then 1 else 0 := by
  have hlookup : ∀ lookup, ((if (CacheReply.found lookup).isHit then 1 else 0) +
      if (CacheReply.found lookup).isMiss then 1 else 0) = 1 := by
    rintro ⟨_ | _, _⟩ <;> rfl
  obtain ⟨now, op⟩ := call
  cases op with
  | get scope file content => exact hlookup _
  | _ => rfl

end Calls

/-! ## Runs -/

/-- What the counters say after some calls: they are the totals of the answers, and no use of the store
that failed or removed an entry is missing. Every call has an answer. -/
structure Tallies (calls : List CacheCall) (replies : List CacheReply) (expired : Nat)
    (uses : List UseNote) (counters : CacheCounters) : Prop where
  fits : List.Forall₂ (fun call reply => reply.Fits call) calls replies
  lookups_eq : counters.hits + counters.misses = calls.countP (·.op.isGet)
  hits_eq : counters.hits = replies.countP CacheReply.isHit
  writes_eq : counters.writes = replies.countP CacheReply.isStored
  deletes_eq : counters.deletes = (replies.map CacheReply.count).sum + expired
  removals_eq : counters.deletes = uses.countP (·.outcome = .removed)
  errors_eq : counters.errors = uses.countP (·.outcome = .failed)

section Runs

variable (cache : Cache σ) (calls : List CacheCall) (s : CacheState σ)

theorem fits_answers :
    List.Forall₂ (fun call reply => CacheReply.Fits call reply) calls (cache.answers calls s).1 := by
  induction calls generalizing s with
  | nil => exact .nil
  | cons call calls ih => exact .cons (fits_answer cache s call) (ih _)

/-- The run lemma: the counters grow by the totals of the answers. -/
theorem told_answers :
    told (cache.answers calls s).2.counters =
      { hits := s.counters.hits + (cache.answers calls s).1.countP CacheReply.isHit
        misses := s.counters.misses + (cache.answers calls s).1.countP CacheReply.isMiss
        writes := s.counters.writes + (cache.answers calls s).1.countP CacheReply.isStored
        deletes := s.counters.deletes +
          (((cache.answers calls s).1.map CacheReply.count).sum + cache.expiredIn calls s)
        errors := 0 } := by
  induction calls generalizing s with
  | nil => rfl
  | cons call calls ih =>
      have hstep := told_step cache s call
      have hfields := ih (cache.step s call)
      simp only [told, adding, CacheCounters.mk.injEq] at hstep hfields
      obtain ⟨hhits, hmisses, hwrites, hdeletes, -⟩ := hstep
      simp only [answers, answer_snd, told, expiredIn, List.countP_cons, List.map_cons,
        List.sum_cons, CacheCounters.mk.injEq]
      exact ⟨by omega, by omega, by omega, by omega, trivial⟩

theorem lookups_answers :
    (cache.answers calls s).1.countP CacheReply.isHit +
      (cache.answers calls s).1.countP CacheReply.isMiss = calls.countP (·.op.isGet) := by
  induction calls generalizing s with
  | nil => rfl
  | cons call calls ih =>
      have hcall := isHit_add_isMiss cache s call
      have hrest := ih (cache.answer s call).2
      simp only [answers, List.countP_cons] at hrest ⊢
      omega

/-- Taking notes changes no answers and no counters. -/
theorem answers_noted (t : CacheState (Noted σ)) :
    (cache.noted.answers calls t).1 = (cache.answers calls (t.through Prod.fst)).1 ∧
      (cache.noted.answers calls t).2.through Prod.fst =
        (cache.answers calls (t.through Prod.fst)).2 := by
  induction calls generalizing t with
  | nil => exact ⟨rfl, rfl⟩
  | cons call calls ih =>
      obtain ⟨hreply, hafter⟩ := answer_through cache.follows_noted t call
      obtain ⟨hreplies, hend⟩ := ih (cache.noted.answer t call).2
      simp only [answers, ← hreply, ← hafter, hreplies, hend, and_self]

/-- The counters since they were last reset account for every call, whatever uses of the store fail:
lookups are hits and misses, and writes, removals and failures are all counted. -/
theorem tallies_after_reset :
    let start := s.resetCounters
    Tallies calls (cache.answers calls start).1 (cache.expiredIn calls start)
      (cache.usesIn calls start) (calls.foldl cache.step start).counters := by
  intro start
  have htold := told_answers cache calls start
  have hlookups := lookups_answers cache calls start
  have hbalanced : Balanced 0 (cache.noted.answers calls ⟨(s.place, []), start.counters⟩).2 :=
    balanced_answers cache calls ⟨rfl, rfl⟩
  have hnoted := (answers_noted cache calls ⟨(s.place, []), start.counters⟩).2
  have hcounters : (cache.noted.answers calls ⟨(s.place, []), start.counters⟩).2.counters =
      (cache.answers calls start).2.counters := congrArg CacheState.counters hnoted
  rw [← answers_snd]
  simp only [told, CacheCounters.mk.injEq] at htold
  obtain ⟨hhits, hmisses, hwrites, hdeletes, -⟩ := htold
  have herrors := hbalanced.errors_eq
  have hremovals := hbalanced.deletes_eq
  rw [hcounters] at herrors hremovals
  have hzero : start.counters = .zero := rfl
  rw [hzero] at hhits hmisses hwrites hdeletes
  simp only [CacheCounters.zero, Nat.zero_add] at hhits hmisses hwrites hdeletes
  exact {
    fits := fits_answers cache calls start
    lookups_eq := by rw [hhits, hmisses, hlookups]
    hits_eq := hhits
    writes_eq := hwrites
    deletes_eq := hdeletes
    removals_eq := hremovals
    errors_eq := herrors }

end Runs

end Cache

end CodeAtlas
