import JobBoard.Call.Rival
import JobBoard.Proofs.Call.Protocol
import JobBoard.Proofs.Error.Classification

/-!
# What passes between the protocol and its store

The protocol runs on any store of names, so it also runs on one that keeps a record of every call
and of everything told (`NameStore.recorded`). What is recorded of one name is a conversation of at
most three calls (`Conversation.Proper`), whatever the store replies. Names in a list have their
conversations one after the other, up to the first that fails. The main theorem is
`resolution_protocol`.
-/

set_option autoImplicit false

namespace JobBoard

open Observe

/-- A call of the store with its reply, or something told. -/
inductive Exchange where
  | find (d : Dictionary) (name : String) (reply : Except StoreError (Option Int))
  | insert (d : Dictionary) (name : String) (reply : Except StoreError Int)
  | told (e : Event)

/-! ## One name -/

/-- The replies that the protocol got about one name, and what it made of them. -/
structure Conversation where
  found : Except StoreError (Option Int)
  inserted : Option (Except StoreError Int) := none
  reread : Option (Except StoreError (Option Int)) := none
  outcome : Except BoardError Int

namespace Conversation

/-- The exchanges between the announcement and the report of an error. -/
def calls (d : Dictionary) (name : String) (c : Conversation) : List Exchange :=
  .find d name c.found :: c.inserted.toList.map (Exchange.insert d name) ++
    c.reread.toList.flatMap fun reply => [.told (.retried d), .find d name reply]

/-- The report of an error. -/
def report (c : Conversation) : List Exchange :=
  match c.outcome with
  | .ok _ => []
  | .error e => [.told (.failed .resolve e)]

/-- All exchanges about a name, in order. -/
def trace (d : Dictionary) (name : String) (c : Conversation) : List Exchange :=
  .told (.called .resolve) :: (c.calls d name ++ c.report)

/-- The reply to the last call. An insertion replies with an id if it replies at all. -/
def lastReply (c : Conversation) : Except StoreError (Option Int) :=
  c.reread.getD ((c.inserted.map fun reply => reply.map some).getD c.found)

/-- The error of the last call, if it failed. -/
def lastError? (c : Conversation) : Option StoreError :=
  match c.lastReply with
  | .error e => some e
  | .ok _ => none

/-- When the protocol makes which call, and what it makes of the replies. -/
structure Proper (c : Conversation) : Prop where
  /-- An insertion is tried exactly if the name was looked up and is not there. -/
  inserts : (∃ reply, c.inserted = some reply) ↔ c.found = .ok none
  /-- The name is looked up again exactly if the insertion met a clash. -/
  rereads : (∃ reply, c.reread = some reply) ↔
    ∃ e, c.inserted = some (.error e) ∧ e.writeFailure = .uniqueViolation
  /-- The answer is the id that the last call replied with. -/
  answers : ∀ id, c.outcome = .ok id ↔ c.lastReply = .ok (some id)
  /-- The caller is blamed exactly for an insertion of bad values. -/
  blames : (∃ message, c.outcome = .error (.badRequest message)) ↔
    ∃ e, c.inserted = some (.error e) ∧ (e.writeFailure = .notNullViolation ∨
      e.writeFailure = .typeViolation ∨ e.writeFailure = .checkViolation)
  /-- Every other error is internal, and its source is the error of the call that failed. -/
  fails : ∀ e, c.outcome = .error e → (∃ message, e = .badRequest message) ∨
    ∃ context, e = .internal context c.lastError?
  /-- There is no such source only if the name is gone when it is looked up again. -/
  sourceless : (∃ context, c.outcome = .error (.internal context none)) ↔
    c.reread = some (.ok none)
  /-- An insertion that was given up is taken neither for a clash nor for bad input. -/
  cancelled : ∀ e, c.inserted = some (.error e) → e.isCancellation = true →
    c.reread = none ∧ ∃ context, c.outcome = .error (.internal context (some e))

variable {d : Dictionary}

/-- The conversation that ends with the first look-up. -/
theorem proper_of_found {found : Except StoreError (Option Int)} {outcome : Except BoardError Int}
    (h : Stage.afterFind d found = .finished outcome) :
    Proper { found, outcome } := by
  rcases found with e | _ | id
  · obtain rfl : _ = outcome := Stage.finished.inj h
    constructor <;> simp [lastReply, lastError?]
  · exact nomatch h
  · obtain rfl : _ = outcome := Stage.finished.inj h
    constructor <;> simp [lastReply]

/-- The conversation that ends with the insertion. -/
theorem proper_of_inserted {inserted : Except StoreError Int} {outcome : Except BoardError Int}
    (h : Stage.afterInsert d inserted = .finished outcome) :
    Proper { found := .ok none, inserted := some inserted, outcome } := by
  cases inserted with
  | ok id =>
    obtain rfl : _ = outcome := Stage.finished.inj h
    constructor <;> simp [lastReply, Except.map]
  | error e =>
    rw [Stage.afterInsert] at h
    split at h
    · cases h
    · rename_i hclash
      obtain rfl : _ = outcome := Stage.finished.inj h
      have hcancelled := @StoreError.writeFailure_of_isCancellation e
      cases hclass : e.writeFailure <;>
        constructor <;> simp_all [lastReply, lastError?, Except.map, BoardError.ofFailedWrite,
          WriteFailure.isBadInput]

/-- The conversation that ends with the second look-up. -/
theorem proper_of_reread {e : StoreError} (hclash : e.writeFailure = .uniqueViolation)
    (reread : Except StoreError (Option Int)) :
    Proper { found := .ok none, inserted := some (.error e), reread := some reread,
             outcome := Stage.afterReread d reread } := by
  have hcancelled : e.isCancellation ≠ true := by
    intro h
    rw [StoreError.writeFailure_of_isCancellation h] at hclash
    exact nomatch hclash
  rcases reread with e' | _ | id <;>
    constructor <;> simp [lastReply, lastError?, Stage.afterReread, hclash, hcancelled]

end Conversation

namespace NameStore

variable {σ : Type} (S : NameStore σ) (d : Dictionary)

/-- The store with a record of what passes. -/
def recorded : NameStore (σ × List Exchange) where
  find d name s :=
    let (reply, t) := S.find d name s.1
    (reply, t, s.2 ++ [.find d name reply])
  insert d name s :=
    let (reply, t) := S.insert d name s.1
    (reply, t, s.2 ++ [.insert d name reply])
  tell e s := (S.tell e s.1, s.2 ++ [.told e])

/-- What passes while a name is resolved. -/
def heard (name : String) (s : σ) : List Exchange := (S.recorded.resolve d name (s, [])).2.2

/-- Between its announcement and its report a name has a proper conversation, and the record changes
nothing. -/
theorem converses_findOrCreate (name : String) (s : σ) :
    ∃ c : Conversation, c.Proper ∧ (S.findOrCreate d name s).1 = c.outcome ∧
      ∀ log, S.recorded.findOrCreate d name (s, log) =
        (c.outcome, (S.findOrCreate d name s).2, log ++ c.calls d name) := by
  rcases hfind : S.find d name s with ⟨found, s₁⟩
  have hdone : ∀ outcome, Stage.afterFind d found = .finished outcome →
      ∃ c : Conversation, c.Proper ∧ (S.findOrCreate d name s).1 = c.outcome ∧
        ∀ log, S.recorded.findOrCreate d name (s, log) =
          (c.outcome, (S.findOrCreate d name s).2, log ++ c.calls d name) := by
    intro outcome h
    refine ⟨_, Conversation.proper_of_found h, ?_, fun log => ?_⟩
    · simp only [findOrCreate, hfind, h]
    · simp [findOrCreate, recorded, hfind, h, Conversation.calls]
  rcases found with e | _ | id
  · exact hdone _ rfl
  · rcases hinsert : S.insert d name s₁ with ⟨inserted, s₂⟩
    rcases Stage.afterInsert_cases d inserted with ⟨outcome, h⟩ | ⟨h, e, rfl, hclash⟩
    · refine ⟨_, Conversation.proper_of_inserted h, ?_, fun log => ?_⟩
      · simp only [findOrCreate, create, hfind, Stage.afterFind, hinsert, h]
      · simp [findOrCreate, create, recorded, hfind, Stage.afterFind, hinsert, h,
          Conversation.calls]
    · rcases hreread : S.find d name (S.tell (.retried d) s₂) with ⟨reply, s₃⟩
      refine ⟨_, Conversation.proper_of_reread (d := d) hclash reply, ?_, fun log => ?_⟩
      · simp only [findOrCreate, create, reread, hfind, Stage.afterFind, hinsert, h, hreread]
      · simp [findOrCreate, create, reread, recorded, hfind, Stage.afterFind, hinsert, h, hreread,
          Conversation.calls]
  · exact hdone _ rfl

/-- What passes about a name is a proper conversation, and the record changes nothing. -/
theorem converses_resolve (name : String) (s : σ) :
    ∃ c : Conversation, c.Proper ∧ (S.resolve d name s).1 = c.outcome ∧
      ∀ log, S.recorded.resolve d name (s, log) =
        (c.outcome, (S.resolve d name s).2, log ++ c.trace d name) := by
  obtain ⟨c, hproper, houtcome, hrecorded⟩ :=
    S.converses_findOrCreate d name (S.tell (.called .resolve) s)
  refine ⟨c, hproper, ?_, fun log => ?_⟩
  · rw [← houtcome, resolve, observed]
    rcases S.findOrCreate d name (S.tell (.called .resolve) s) with ⟨e | id, s'⟩ <;> rfl
  · have hannounced : S.recorded.tell (.called .resolve) (s, log) =
        (S.tell (.called .resolve) s, log ++ [.told (.called .resolve)]) := rfl
    rw [resolve, resolve, observed, observed, hannounced, hrecorded, Conversation.trace,
      Conversation.report]
    revert houtcome
    rcases S.findOrCreate d name (S.tell (.called .resolve) s) with ⟨e | id, s'⟩ <;>
      intro houtcome <;> simp only [← houtcome] <;> simp [recorded]

/-- The record adds what is heard, and changes nothing. -/
theorem recorded_resolve (name : String) (s : σ) (log : List Exchange) :
    S.recorded.resolve d name (s, log) =
      ((S.resolve d name s).1, (S.resolve d name s).2, log ++ S.heard d name s) := by
  obtain ⟨c, -, houtcome, hrecorded⟩ := S.converses_resolve d name s
  rw [heard, hrecorded log, hrecorded [], houtcome, List.nil_append]

/-! ## Lists of names -/

/-- A name that is resolved, and the state that it finds. -/
structure Run (σ : Type) where
  name : String
  start : σ

/-- The names of a list that are resolved, each in the state that the one before it left, up to the
first that fails. -/
def runs : List String → σ → List (Run σ)
  | [], _ => []
  | name :: rest, s =>
    ⟨name, s⟩ ::
      match S.resolve d name s with
      | (.ok _, s) => runs rest s
      | (.error _, _) => []

/-- If all names have ids then all of them were resolved. -/
theorem runs_of_ok {names : List String} {s s' : σ} {ids : List Int}
    (h : S.resolveEach d names s = (.ok ids, s')) :
    (S.runs d names s).map Run.name = names ∧
      (S.runs d names s).map (fun r => (S.resolve d r.name r.start).1) = ids.map .ok := by
  induction names generalizing s ids with
  | nil =>
    obtain ⟨rfl, rfl⟩ : ids = [] ∧ s = s' := by simpa [resolveEach, eq_comm] using h
    exact ⟨rfl, rfl⟩
  | cons name rest ih =>
    rw [resolveEach] at h
    rcases hfirst : S.resolve d name s with ⟨e | id, s₁⟩
    · simp [hfirst] at h
    rcases hrest : S.resolveEach d rest s₁ with ⟨e | ids', s₂⟩
    · simp [hfirst, hrest] at h
    obtain ⟨rfl, rfl⟩ : id :: ids' = ids ∧ s₂ = s' := by simpa [hfirst, hrest] using h
    obtain ⟨hnames, hids⟩ := ih hrest
    simp only [runs, hfirst, List.map_cons, hnames, hids, and_self]

/-- If a list fails then that is the failure of one of its names, after those before it got their
ids. -/
theorem runs_of_error {names : List String} {s s' : σ} {e : BoardError}
    (h : S.resolveEach d names s = (.error e, s')) :
    ∃ before last after ids, names = before ++ last.name :: after ∧
      S.runs d names s = S.runs d before s ++ [last] ∧
      S.resolveEach d before s = (.ok ids, last.start) ∧
      S.resolve d last.name last.start = (.error e, s') := by
  induction names generalizing s with
  | nil => simp [resolveEach] at h
  | cons name rest ih =>
    rw [resolveEach] at h
    rcases hfirst : S.resolve d name s with ⟨e' | id, s₁⟩
    · obtain ⟨rfl, rfl⟩ : e' = e ∧ s₁ = s' := by simpa [hfirst] using h
      exact ⟨[], ⟨name, s⟩, rest, [], rfl, by simp only [runs, hfirst, List.nil_append], rfl,
        hfirst⟩
    · rcases hrest : S.resolveEach d rest s₁ with ⟨e' | ids, s₂⟩
      · obtain ⟨rfl, rfl⟩ : e' = e ∧ s₂ = s' := by simpa [hfirst, hrest] using h
        obtain ⟨before, last, after, ids, rfl, hruns, hbefore, hlast⟩ := ih hrest
        refine ⟨name :: before, last, after, id :: ids, rfl, ?_, ?_, hlast⟩
        · simp only [runs, hfirst, hruns, List.cons_append]
        · simp only [resolveEach, hfirst, hbefore]
      · simp [hfirst, hrest] at h

/-- What passes about a list is what passes about its names, one after the other. -/
theorem recorded_resolveEach (names : List String) (s : σ) (log : List Exchange) :
    S.recorded.resolveEach d names (s, log) =
      ((S.resolveEach d names s).1, (S.resolveEach d names s).2,
        log ++ (S.runs d names s).flatMap fun r => S.heard d r.name r.start) := by
  induction names generalizing s log with
  | nil => simp [resolveEach, runs]
  | cons name rest ih =>
    rw [resolveEach, resolveEach, recorded_resolve, runs]
    rcases S.resolve d name s with ⟨e | id, s₁⟩
    · simp
    · simp only [ih]
      rcases S.resolveEach d rest s₁ with ⟨e | ids, s₂⟩ <;> simp

end NameStore

/-- Whatever a store of names replies, a name is looked up once; it is inserted exactly if it was
not there, and looked up once more exactly if that met a clash, which is told just before; there is
no other call and none about another name. The id of the last call is the answer; bad values are the
caller's fault; every other error is internal and has that of the failing call as its source. A list
of names has these conversations one after the other, up to the first failure, which is the outcome,
or to the end, and then there is one id for each name. -/
theorem resolution_protocol {σ : Type} (S : NameStore σ) (d : Dictionary) :
    (∀ name s, ∃ c : Conversation, c.Proper ∧ (S.resolve d name s).1 = c.outcome ∧
      S.recorded.resolve d name (s, []) = (c.outcome, (S.resolve d name s).2, c.trace d name)) ∧
      ∀ names s, names ≠ [] →
        let started := S.tell (.called .resolveAll) s
        let rs := S.runs d names started
        S.recorded.resolveAll d names (s, []) =
            ((S.resolveAll d names s).1, (S.resolveAll d names s).2,
              .told (.called .resolveAll) :: rs.flatMap fun r => S.heard d r.name r.start) ∧
          match S.resolveAll d names s with
          | (.ok ids, _) => rs.map NameStore.Run.name = names ∧ ids.length = names.length ∧
            rs.map (fun r => (S.resolve d r.name r.start).1) = ids.map .ok
          | (.error e, s') => ∃ before last after ids, names = before ++ last.name :: after ∧
            rs = S.runs d before started ++ [last] ∧
            S.resolveEach d before started = (.ok ids, last.start) ∧
            S.resolve d last.name last.start = (.error e, s') := by
  constructor
  · intro name s
    obtain ⟨c, hproper, houtcome, hrecorded⟩ := S.converses_resolve d name s
    exact ⟨c, hproper, houtcome, hrecorded []⟩
  · intro names s hnames started rs
    have hannounced : S.recorded.tell (.called .resolveAll) (s, []) =
        (started, [.told (.called .resolveAll)]) := rfl
    rw [S.recorded.resolveAll_of_ne_nil d hnames, S.resolveAll_of_ne_nil d hnames, hannounced,
      S.recorded_resolveEach]
    refine ⟨rfl, ?_⟩
    rcases heach : S.resolveEach d names started with ⟨e | ids, s'⟩
    · exact S.runs_of_error d heach
    · obtain ⟨hall, hids⟩ := S.runs_of_ok d heach
      exact ⟨hall, S.length_of_resolveEach d (congrArg Prod.fst heach), hids⟩

/-- A store that meets a clash over the first name and gives up at the second is not asked about the
third. -/
theorem resolution_protocol_sample :
    let clash : StoreError := .refused (.duplicate false "skill" ["name"])
    let s : Scripted := { script := [{ find := some (.ok none) }, { insert := some (.error clash) },
      { find := some (.ok (some 7)) }, { find := some (.error (.abandoned .cancelled)) }] }
    let started := Scripted.names.tell (.called .resolveAll) s
    let rs := Scripted.names.runs .skill ["go", "sql", "c"] started
    (Scripted.names.recorded.resolveAll .skill ["go", "sql", "c"] (s, [])).2.2 =
        .told (.called .resolveAll) ::
          rs.flatMap (fun r => Scripted.names.heard .skill r.name r.start) ∧
      rs.map NameStore.Run.name = ["go", "sql"] ∧
      (Scripted.names.resolveAll .skill ["go", "sql", "c"] s).2.calls =
        [.find "go", .insert "go", .find "go", .find "sql"] := by
  intro clash s started rs
  have hlist := (resolution_protocol Scripted.names .skill).2 ["go", "sql", "c"] s (by simp)
  exact ⟨congrArg (fun r => r.2.2) hlist.1, by decide, by decide⟩

end JobBoard
