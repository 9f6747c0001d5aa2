import JobBoard.Console.Command
import JobBoard.Proofs.Call.Reading

/-!
# Turns of calls on one connection

Calls of the board run one after the other on a connection, whatever their tokens do and whatever
locks others hold in each turn. Consistent tables stay consistent and entries stay what they are, so
an id once told for a name is its id from then on. The main theorem is `told_ids_stable`.
-/

set_option autoImplicit false

namespace JobBoard.Console

open Cancel Store

/-! ## One call -/

/-- Whether a rival takes part in a call. -/
def BoardCall.hasRival : BoardCall → Bool
  | .resolveAgainst .. => true
  | _ => false

/-- The areas of the tables that a call is about. -/
def BoardCall.areas : BoardCall → List Area
  | .insertName d _ | .resolve d _ | .resolveAll d _ => [.entries d]
  | .associate k owner _ | .clearOwner k owner => [.edges k owner]
  | .attachNames k owner _ | .replaceNames k owner _ => Call.namedAreas k owner
  | _ => []

/-- Ids and names of one dictionary, side by side. -/
def entriesTold (d : Dictionary) (ids : List Int) (names : List String) :
    List (Dictionary × Entry) :=
  (List.zipWith Entry.mk ids names).map (d, ·)

/-- The entries that the reply to a call tells of. -/
def BoardCall.told : BoardCall → Reply → List (Dictionary × Entry)
  | .findIdByName d name, .optionalNumber (some id) => [(d, ⟨id, name⟩)]
  | .insertName d name, .number id | .resolve d name, .number id => [(d, ⟨id, name⟩)]
  | .resolveAll d names, .numbers ids => entriesTold d ids names
  | .findIdsByNames d names, .numbers ids =>
    if ids.length = (firstsBy id [] names).length then entriesTold d ids (firstsBy id [] names)
    else []
  | .attachNames k _ names, .numbers ids | .replaceNames k _ names, .numbers ids =>
    entriesTold k.dictionary ids (normalizeNames names)
  | .getById d _, .entry e => [(d, e)]
  | .getByIds d _, .entries es | .listAll d, .entries es => es.map (d, ·)
  | .listForOwner k _, .entries es | .attached k _, .entries es => es.map (k.dictionary, ·)
  | _, _ => []

/-- A call leads to the new tables by changes of its areas. -/
theorem leads_run {b : BoardCall} (hb : b.hasRival = false) (s : Call) :
    Call.Leads b.areas s (b.run s).2 := by
  cases b with
  | findIdByName d name => exact Call.leads_findId name s
  | insertName d name => exact Call.leads_insertName name s
  | resolve d name => exact Call.leads_resolve d name s
  | resolveAll d names => exact Call.leads_resolveAll d names s
  | resolveAgainst id move d name => simp [BoardCall.hasRival] at hb
  | getById d id => exact (Call.reads_getById d id s).leads
  | getByIds d ids => exact (Call.reads_getByIds d ids s).leads
  | listAll d => exact (Call.reads_listAll d s).leads
  | findIdsByNames d names => exact (Call.reads_findIdsByNames d names s).leads
  | associate k owner ids => exact Call.leads_associate (List.mem_singleton_self _) ids s
  | listForOwner k owner => exact (Call.reads_listForOwner k owner s).leads
  | clearOwner k owner => exact Call.leads_clearOwner k owner s
  | attachNames k owner names => exact Call.leads_attachNames k owner names s
  | replaceNames k owner names => exact Call.leads_replaceNames k owner names s
  | attached k owner => exact (Call.reads_listForOwner k owner s).leads
  | search limits criteria => exact (Call.reads_search limits criteria s).leads
  | searchFor limits request => exact (Call.reads_searchFor limits request s).leads

/-- A failed call tells nothing, so only the answers of a call matter. -/
theorem known_of_answered {α : Type} {f : α → Reply} {r : Answered Call α}
    {told : Reply → List (Dictionary × Entry)} (herror : ∀ e, told (.boardFailed e) = [])
    (hok : ∀ a, r.1 = .ok a → ∀ p ∈ told (f a), r.2.Knows p.1 p.2) :
    ∀ p ∈ told (answered f r).1, (answered f r).2.Knows p.1 p.2 := by
  rcases r with ⟨e | a, s⟩
  · intro p hp
    rw [show told (answered f (.error e, s)).1 = [] from herror e] at hp
    exact nomatch hp
  · exact hok a rfl

theorem known_entriesTold {d : Dictionary} {ids : List Int} {names : List String} {s : Call}
    (h : ∀ e ∈ List.zipWith Entry.mk ids names, s.Knows d e) :
    ∀ p ∈ entriesTold d ids names, s.Knows p.1 p.2 := by
  intro p hp
  obtain ⟨e, he, rfl⟩ := List.mem_map.1 hp
  exact h e he

/-- Entries that were read off the tables are there when the call is over. -/
theorem known_map {d : Dictionary} {areas : List Area} {es : List Entry} {s s' : Call}
    (hleads : Call.Leads areas s s') (hs : s.connection.transaction = none)
    (h : ∀ e ∈ es, s.Knows d e) : ∀ p ∈ es.map (d, ·), s'.Knows p.1 p.2 := by
  intro p hp
  obtain ⟨e, he, rfl⟩ := List.mem_map.1 hp
  exact hleads.knows hs (h e he)

/-- What a call tells is so when it is over, unless others keep the connection from committing. -/
theorem told_known {b : BoardCall} (hb : b.hasRival = false) {s : Call}
    (hs : s.connection.transaction = none) (hfree : s.connection.commitBlocked = false) :
    ∀ p ∈ b.told (b.run s).1, (b.run s).2.Knows p.1 p.2 := by
  cases b with
  | findIdByName d name =>
    intro p hp
    rcases hr : s.findId d name with ⟨e | _ | id, s'⟩
    · simp [BoardCall.run, stored, hr, Reply.ofStore, BoardCall.told] at hp
    · simp [BoardCall.run, stored, hr, Reply.ofStore, BoardCall.told] at hp
    · obtain rfl : p = (d, ⟨id, name⟩) := by
        simpa [BoardCall.run, stored, hr, Reply.ofStore, BoardCall.told] using hp
      exact Call.findId_known hs (congrArg Prod.fst hr)
  | insertName d name =>
    intro p hp
    rcases hr : s.insertName d name with ⟨e | id, s'⟩
    · simp [BoardCall.run, stored, hr, Reply.ofStore, BoardCall.told] at hp
    · obtain rfl : p = (d, ⟨id, name⟩) := by
        simpa [BoardCall.run, stored, hr, Reply.ofStore, BoardCall.told] using hp
      exact Call.insertName_known hs hfree (congrArg Prod.fst hr)
  | resolve d name =>
    refine known_of_answered (fun _ => rfl) fun id h p hp => ?_
    obtain rfl := List.mem_singleton.1 hp
    exact Call.resolve_known hs hfree h
  | resolveAll d names =>
    exact known_of_answered (fun _ => rfl) fun ids h =>
      known_entriesTold (Call.resolveAll_known hs hfree h).2
  | resolveAgainst id move d name => simp [BoardCall.hasRival] at hb
  | getById d id =>
    refine known_of_answered (fun _ => rfl) fun e h p hp => ?_
    obtain rfl := List.mem_singleton.1 hp
    exact (leads_run hb s).knows hs (Call.getById_known hs h).1
  | getByIds d ids =>
    exact known_of_answered (fun _ => rfl) fun es h =>
      known_map (leads_run hb s) hs (Call.getByIds_known hs h)
  | listAll d =>
    exact known_of_answered (fun _ => rfl) fun es h =>
      known_map (leads_run hb s) hs (Call.listAll_known hs h)
  | findIdsByNames d names =>
    refine known_of_answered (fun _ => rfl) fun ids h p hp => ?_
    replace hp : p ∈ if ids.length = (firstsBy id [] names).length then
      entriesTold d ids (firstsBy id [] names) else [] := hp
    split at hp
    · rename_i hlength
      refine known_entriesTold (fun e he => ?_) p hp
      exact (leads_run hb s).knows hs
        (Call.findIdsByNames_known hs h hlength e he)
    · exact nomatch hp
  | attachNames k owner names =>
    exact known_of_answered (fun _ => rfl) fun ids h =>
      known_entriesTold (Call.attachNames_known hs hfree h)
  | replaceNames k owner names =>
    exact known_of_answered (fun _ => rfl) fun ids h =>
      known_entriesTold (Call.replaceNames_known hs hfree h)
  | listForOwner k owner =>
    exact known_of_answered (fun _ => rfl) fun es h =>
      known_map (leads_run hb s) hs (Call.listForOwner_known hs h)
  | attached k owner =>
    exact known_of_answered (fun _ => rfl) fun es h =>
      known_map (leads_run hb s) hs (Call.listForOwner_known hs h)
  | associate k owner ids => simp [BoardCall.told]
  | clearOwner k owner => simp [BoardCall.told]
  | search limits criteria => simp [BoardCall.told]
  | searchFor limits request => simp [BoardCall.told]

/-! ## Calls in turn -/

/-- A call that runs in its turn: how its token behaves, what others hold meanwhile, and the steps
that the statements which are kept have behind them. -/
structure Turn where
  call : BoardCall
  signal : Signal := {}
  elsewhere : Elsewhere := {}
  taken : Taken := []
  alone : call.hasRival = false

namespace Turn

/-- The call before it runs. -/
def start (t : Turn) (c : Connection) : Call where
  connection := { c with elsewhere := t.elsewhere }
  signal := t.signal
  taken := t.taken

/-- The reply to the call. -/
def reply (t : Turn) (c : Connection) : Reply := (t.call.run (t.start c)).1

/-- The connection after the call. -/
def after (t : Turn) (c : Connection) : Connection := (t.call.run (t.start c)).2.connection

end Turn

/-- The connection after some calls. -/
def play : Connection → List Turn → Connection := List.foldl fun c t => t.after c

/-- A connection without a transaction, on consistent tables whose rules are in force. -/
structure Orderly (c : Connection) : Prop where
  idle : c.transaction = none
  rules : c.ignoresRules = false
  tables : c.committed.Consistent

/-- A turn leaves the connection in order and takes no entry away. -/
theorem Orderly.after {c : Connection} (hc : Orderly c) (t : Turn) :
    Orderly (t.after c) ∧ c.committed.KeepsEntries (t.after c).committed := by
  obtain ⟨hidle, hsettings, hsteps⟩ := leads_run t.alone (t.start c) hc.idle
  have hrules : (t.after c).ignoresRules = false :=
    (Connection.ignoresRules_of_settings hsettings).trans hc.rules
  rw [show (t.start c).connection.ignoresRules = false from hc.rules] at hsteps
  exact ⟨⟨hidle, hrules, hsteps.consistent hc.tables⟩, hsteps.keepsEntries⟩

/-- So do any number of turns. -/
theorem Orderly.play {c : Connection} (hc : Orderly c) (ts : List Turn) :
    Orderly (play c ts) ∧ c.committed.KeepsEntries (play c ts).committed := by
  induction ts generalizing c with
  | nil => exact ⟨hc, .refl _⟩
  | cons t rest ih =>
    obtain ⟨hafter, hkeeps⟩ := hc.after t
    obtain ⟨hplay, hkeeps'⟩ := ih hafter
    exact ⟨hplay, hkeeps.trans hkeeps'⟩

/-- What a turn tells is so when it is over. -/
theorem Orderly.told {c : Connection} (hc : Orderly c) (t : Turn)
    (hfree : (t.start c).connection.commitBlocked = false) :
    ∀ p ∈ t.call.told (t.reply c), p.2 ∈ (t.after c).committed.rows (.dictionary p.1) :=
  told_known t.alone hc.idle hfree

/-- An entry is what later calls find: its name resolves to its id, and its id to the entry. -/
theorem Orderly.answers {c : Connection} (hc : Orderly c) {d : Dictionary} {e : Entry}
    (he : e ∈ c.committed.rows (.dictionary d)) (t : Turn) :
    (∀ id, t.call = .resolve d e.name → t.reply c = .number id → id = e.id) ∧
      ∀ e', t.call = .getById d e.id → t.reply c = .entry e' → e' = e := by
  refine ⟨fun id hcall hreply => ?_, fun e' hcall hreply => ?_⟩
  · rw [Turn.reply, hcall] at hreply
    rcases hr : (t.start c).resolve d e.name with ⟨cause | id', s⟩
    · simp [BoardCall.run, answered, hr, Reply.ofBoard] at hreply
    · obtain rfl : id' = id := by simpa [BoardCall.run, answered, hr, Reply.ofBoard] using hreply
      exact Call.resolve_of_known (s := t.start c) hc.idle (hc.tables.entryNames d) he
        (congrArg Prod.fst hr)
  · rw [Turn.reply, hcall] at hreply
    rcases hr : (t.start c).getById d e.id with ⟨cause | e'', s⟩
    · simp [BoardCall.run, answered, hr, Reply.ofBoard] at hreply
    · obtain rfl : e'' = e' := by simpa [BoardCall.run, answered, hr, Reply.ofBoard] using hreply
      obtain ⟨hmem, hid⟩ := Call.getById_known (s := t.start c) hc.idle (congrArg Prod.fst hr)
      exact List.inj_on_of_nodup_map (hc.tables.entryIds d) hmem he hid

/-- Calls in turn, of any kind and number, keep the tables consistent and never take an entry away
or change one. An id that a call tells for a name is its id from then on: whenever the name is
resolved later the answer is that id, and whenever the id is looked up the answer is that name. Only
the turn that tells it must be free of a foreign reader that keeps the connection from committing,
which there is only without a write-ahead log: its id would be handed back and the new name lost. -/
theorem told_ids_stable (c : Connection) (hc : Orderly c) (before after : List Turn) :
    let earlier := play c before
    let later := play earlier after
    Orderly later ∧ earlier.committed.KeepsEntries later.committed ∧
      ∀ t rest, after = t :: rest → (t.start earlier).connection.commitBlocked = false →
        ∀ p ∈ t.call.told (t.reply earlier),
          p.2 ∈ later.committed.rows (.dictionary p.1) ∧
            ∀ u : Turn,
              (∀ id, u.call = .resolve p.1 p.2.name → u.reply later = .number id → id = p.2.id) ∧
                ∀ e, u.call = .getById p.1 p.2.id → u.reply later = .entry e → e = p.2 := by
  intro earlier later
  have hearlier : Orderly earlier := (hc.play before).1
  obtain ⟨hlater, hkeeps⟩ := hearlier.play after
  refine ⟨hlater, hkeeps, ?_⟩
  rintro t rest rfl hfree p hp
  -- what is told is there after the turn, and no later turn takes it away
  have hafter : Orderly (t.after earlier) := (hearlier.after t).1
  have hmem : p.2 ∈ later.committed.rows (.dictionary p.1) :=
    (hafter.play rest).2 _ _ (hearlier.told t hfree p hp)
  exact ⟨hmem, hlater.answers hmem⟩

/-- On the small store a new name gets the third id, and keeps it while the edges of a vacancy are
replaced by a call that is cancelled on the way. -/
theorem told_ids_stable_sample :
    let c : Connection := { committed := .sample }
    let resolve : Turn := { call := .resolve .skill "go", alone := rfl }
    let replace : Turn := {
      call := .replaceNames .vacancySkill 1 ["sql"]
      signal := { alarms := [⟨.check, 3, .cancelled⟩] }
      alone := rfl }
    resolve.call.told (resolve.reply c) = [(.skill, ⟨3, "go"⟩)] ∧
      Orderly (play c [resolve, replace]) ∧
      ⟨3, "go"⟩ ∈ (play c [resolve, replace]).committed.rows (.dictionary .skill) := by
  intro c resolve replace
  have hc : Orderly c := ⟨rfl, rfl, Database.sample_consistent⟩
  have htold : resolve.call.told (resolve.reply c) = [(.skill, ⟨3, "go"⟩)] := by decide
  obtain ⟨horderly, -, hstable⟩ := told_ids_stable c hc [] [resolve, replace]
  refine ⟨htold, horderly, (hstable resolve [replace] rfl rfl (.skill, ⟨3, "go"⟩) ?_).1⟩
  show _ ∈ resolve.call.told (resolve.reply c)
  rw [htold]
  exact List.mem_singleton_self _

/-- A turn in which a skill is resolved. -/
def resolving (name : String) (elsewhere : Elsewhere) : Turn :=
  { call := .resolve .skill name, elsewhere, alone := rfl }

/-- An id that is told while a reader keeps the connection from committing need not stay: "java"
gets the one that "go" was told, and "go" is told another one later. -/
theorem not_told_ids_always_stable :
    ¬ ∀ c : Connection, Orderly c → ∀ (t : Turn) (rest : List Turn),
      ∀ p ∈ t.call.told (t.reply c), ∀ (u : Turn) (id : Int), u.call = .resolve p.1 p.2.name →
        u.reply (play c (t :: rest)) = .number id → id = p.2.id := by
  intro h
  let c : Connection := { committed := .sample, journal := .rollback }
  let lost : Turn := resolving "go" { reading := true }
  have htold : lost.call.told (lost.reply c) = [(.skill, ⟨3, "go"⟩)] := by decide
  have hlater : (resolving "go" {}).reply (play c [lost, resolving "java" {}]) = .number 4 := by
    decide +kernel
  have hsame : (4 : Int) = 3 :=
    h c ⟨rfl, rfl, Database.sample_consistent⟩ lost [resolving "java" {}] (.skill, ⟨3, "go"⟩)
      (htold ▸ List.mem_singleton_self _) (resolving "go" {}) 4 rfl hlater
  exact absurd hsame (by decide)

end JobBoard.Console
