import JobBoard.Proofs.Call.Conversation
import JobBoard.Proofs.Call.NamedAttachment
import JobBoard.Proofs.Call.Undisturbed

/-!
# Names in a batch

Names are resolved one after the other, so a name that is created early is found later. On success
the dictionary has gained every missing name once, with ids that count on from the largest
(`ids_newEntries`), and has an entry of its own for every name of the list. A failure leaves what
the names before it have come to. Where nothing disturbs the call it fails exactly at the first name
that the rules of the dictionary forbid. The main theorem is `resolveAll_enters_missing`.
-/

set_option autoImplicit false

namespace JobBoard

open Observe Store

/-! ## Ids in a row -/

/-- The largest id of a table, or zero if the table is empty. -/
def Store.largestId : List Int → Int
  | [] => 0
  | i :: rest => rest.foldl max i

theorem le_largestId {ids : List Int} {i : Int} (hi : i ∈ ids) : i ≤ largestId ids := by
  cases ids with
  | nil => exact nomatch hi
  | cons j rest =>
    obtain ⟨hstart, hrest⟩ := le_foldl_max rest j
    rcases List.mem_cons.1 hi with rfl | hi
    · exact hstart
    · exact hrest i hi

theorem nextId_of_room {ids : List Int} (h : largestId ids < greatestId) :
    nextId ids = largestId ids + 1 := by
  cases ids with
  | nil => rfl
  | cons i rest =>
    rw [nextId]
    exact if_pos h

theorem largestId_append (ids : List Int) :
    largestId (ids ++ [largestId ids + 1]) = largestId ids + 1 := by
  cases ids with
  | nil => rfl
  | cons i rest =>
    rw [List.cons_append, largestId, largestId, List.foldl_append, List.foldl_cons, List.foldl_nil]
    omega

/-- New entries have the ids that follow the largest, if there is room for them. -/
theorem ids_newEntries {x : Table Entry} {list : List String}
    (h : largestId (x.rows.map Entry.id) + list.length ≤ greatestId) :
    (newEntries x list).map Entry.id =
      (List.range list.length).map fun n : Nat => largestId (x.rows.map Entry.id) + 1 + n := by
  induction list generalizing x with
  | nil => rfl
  | cons name rest ih =>
    rw [List.length_cons] at h ⊢
    have hid : (newEntry x name).id = largestId (x.rows.map Entry.id) + 1 :=
      nextId_of_room (by omega)
    have hlargest : largestId ((x.rows ++ [newEntry x name]).map Entry.id) =
        largestId (x.rows.map Entry.id) + 1 := by
      rw [List.map_append, List.map_singleton, hid, largestId_append]
    have hrest := @ih { x with rows := x.rows ++ [newEntry x name] }
    rw [hlargest] at hrest
    rw [newEntries, List.map_cons, hid, hrest (by omega), List.range_succ_eq_map, List.map_cons,
      List.map_map]
    refine congrArg₂ _ (by omega) (List.map_congr_left fun n _ => ?_)
    show largestId (x.rows.map Entry.id) + 1 + 1 + (n : Int) =
      largestId (x.rows.map Entry.id) + 1 + ((n + 1 : Nat) : Int)
    omega

/-! ## What a batch comes to -/

/-- A dictionary has an entry for a name, the only one with this name and the only one with its id.
-/
def Maps (rows : List Entry) (name : String) (id : Int) : Prop :=
  ⟨id, name⟩ ∈ rows ∧ ∀ e ∈ rows, e.name = name ↔ e.id = id

theorem maps_of_mem {rows : List Entry} (hids : (rows.map Entry.id).Nodup)
    (hnames : (rows.map Entry.name).Nodup) {name : String} {id : Int} (h : ⟨id, name⟩ ∈ rows) :
    Maps rows name id := by
  refine ⟨h, fun e he => ⟨fun hname => ?_, fun hid => ?_⟩⟩
  · rw [List.inj_on_of_nodup_map hnames he h hname]
  · rw [List.inj_on_of_nodup_map hids he h hid]

/-- A dictionary was asked for the ids of names, and entries were added to it. There is an id for
each name, and the dictionary maps the names to the ids. Each name that was missing is added once,
in the order of first occurrence, with increasing ids that are larger than all earlier ones. -/
structure Entered (x : Table Entry) (list : List String) (ids : List Int) (added : List Entry) :
    Prop where
  length : ids.length = list.length
  maps : ∀ p ∈ ids.zip list, Maps (x.rows ++ added) p.2 p.1
  faithful : ∀ p ∈ ids.zip list, ∀ q ∈ ids.zip list, p.2 = q.2 ↔ p.1 = q.1
  names : added.map Entry.name = firstsBy id (x.rows.map Entry.name) list
  larger : ∀ e ∈ x.rows, ∀ a ∈ added, e.id < a.id
  increasing : (added.map Entry.id).Pairwise (· < ·)

/-- Where the ids are those that names have, each name has the id beside it. -/
theorem eq_of_mem_zip {f : String → Option Int} {ids : List Int} {list : List String}
    (h : ids.map some = list.map f) {p : Int × String} (hp : p ∈ ids.zip list) :
    f p.2 = some p.1 := by
  induction ids generalizing list with
  | nil => simp at hp
  | cons i ids ih =>
    cases list with
    | nil => simp at hp
    | cons name list =>
      obtain ⟨hfirst, hrest⟩ := List.cons.inj h
      rw [List.zip_cons_cons, List.mem_cons] at hp
      rcases hp with rfl | hp
      · exact hfirst.symm
      · exact ih hrest hp

theorem NamesResolved.entered {d : Dictionary} {list : List String} {ids : List Int}
    {db db' : Database} (h : NamesResolved d list db ids db') {x : Table Entry}
    (hx : db.table (.dictionary d) = some x) (hids : (x.rows.map Entry.id).Nodup)
    (hnames : (x.rows.map Entry.name).Nodup)
    (hroom : largestId (x.rows.map Entry.id) +
      (firstsBy id (x.rows.map Entry.name) list).length ≤ greatestId) :
    Entered x list ids (newEntries x (firstsBy id (x.rows.map Entry.name) list)) := by
  have hadded := ids_newEntries hroom
  have hadded' := map_name_newEntries x (firstsBy id (x.rows.map Entry.name) list)
  have hmap := h.map_idOf?
  have hdb := h.enters hx
  obtain ⟨hfresh, hunseen⟩ := nodup_map_firstsBy id (x.rows.map Entry.name) list
  generalize newEntries x (firstsBy id (x.rows.map Entry.name) list) = added at *
  have hlarger : ∀ e ∈ x.rows, ∀ a ∈ added, e.id < a.id := by
    intro e he a ha
    have hle := le_largestId (List.mem_map_of_mem (f := Entry.id) he)
    have hmem := List.mem_map_of_mem (f := Entry.id) ha
    rw [hadded] at hmem
    obtain ⟨n, -, hn⟩ := List.mem_map.1 hmem
    omega
  have hincreasing : (added.map Entry.id).Pairwise (· < ·) := by
    rw [hadded]
    refine List.pairwise_lt_range.map _ fun a b hab => ?_
    omega
  have hids' : ((x.rows ++ added).map Entry.id).Nodup := by
    rw [List.map_append, List.nodup_append]
    refine ⟨hids, hincreasing.imp (fun h => Int.ne_of_lt h), fun i hi j hj => ?_⟩
    obtain ⟨e, he, rfl⟩ := List.mem_map.1 hi
    obtain ⟨a, ha, rfl⟩ := List.mem_map.1 hj
    exact Int.ne_of_lt (hlarger e he a ha)
  have hnames' : ((x.rows ++ added).map Entry.name).Nodup := by
    rw [List.map_append, List.nodup_append, hadded']
    rw [List.map_id] at hfresh
    refine ⟨hnames, hfresh, ?_⟩
    rintro n hn m hm rfl
    exact hunseen n hm hn
  have hmaps : ∀ p ∈ ids.zip list, Maps (x.rows ++ added) p.2 p.1 := by
    intro p hp
    have hmem := Database.mem_rows_of_idOf? (eq_of_mem_zip hmap hp)
    rw [hdb, Database.rows_setTable_self] at hmem
    exact maps_of_mem hids' hnames' hmem
  have hlength : ids.length = list.length := by simpa using congrArg List.length hmap
  exact ⟨hlength, hmaps, fun p hp q hq => (hmaps q hq).2 _ (hmaps p hp).1, hadded', hlarger,
    hincreasing⟩

/-! ## Forbidden names -/

section Barred

variable {ignoreRules : Bool} {d : Dictionary} {x : Table Entry}

/-- Whether a dictionary would refuse a name: it is not there, and blank while rules are judged. -/
def barred (ignoreRules : Bool) (x : Table Entry) (name : String) : Bool :=
  (x.rows.find? (·.name == name)).isNone && !(ignoreRules || isWritten name)

/-- A name that was entered makes no difference to which names are refused. -/
theorem barred_enlist (ignoreRules : Bool) (d : Dictionary) (x : Table Entry)
    (name other : String) :
    barred ignoreRules (enlist ignoreRules d name x).2 other = barred ignoreRules x other := by
  unfold enlist
  split
  · rfl
  · split
    · rename_i hrules
      by_cases hname : name = other
      · subst hname
        simp [barred, hrules]
      · have hother : ((newEntry x name).name == other) = false := by
          simpa [newEntry] using hname
        simp [barred, List.find?_append, hother]
    · rfl

theorem enlist_of_barred {name : String} (h : barred ignoreRules x name = true) :
    enlist ignoreRules d name x = (.error (blankName d), x) := by
  rw [barred, Bool.and_eq_true, Option.isNone_iff_eq_none, Bool.not_eq_true'] at h
  rw [enlist, h.1]
  simp [h.2]

theorem exists_enlist_of_not_barred {name : String} (h : barred ignoreRules x name = false) :
    ∃ id, (enlist ignoreRules d name x).1 = .ok id := by
  rw [barred] at h
  rw [enlist]
  cases hfound : x.rows.find? (·.name == name) with
  | some e => exact ⟨_, rfl⟩
  | none =>
    have hrules : (ignoreRules || isWritten name) = true := by
      simpa only [hfound, Option.isNone_none, Bool.true_and, Bool.not_eq_false'] using h
    simp only [hrules, if_true]
    exact ⟨_, rfl⟩

/-- A list without a forbidden name is entered. -/
theorem exists_enlistAll {list : List String}
    (h : ∀ name ∈ list, barred ignoreRules x name = false) :
    ∃ ids, (enlistAll ignoreRules d list x).1 = .ok ids := by
  induction list generalizing x with
  | nil => exact ⟨[], rfl⟩
  | cons name rest ih =>
    obtain ⟨hname, hrest⟩ := List.forall_mem_cons.1 h
    obtain ⟨id, hid⟩ := exists_enlist_of_not_barred (d := d) hname
    have hbarred := barred_enlist ignoreRules d x name
    rw [enlistAll]
    generalize enlist ignoreRules d name x = r at hid hbarred
    rcases r with ⟨outcome, x'⟩
    obtain rfl : outcome = .ok id := hid
    obtain ⟨ids, hids⟩ := ih fun other hother => (hbarred other).trans (hrest other hother)
    simp only
    generalize enlistAll ignoreRules d rest x' = r at hids
    rcases r with ⟨outcome, x''⟩
    obtain rfl : outcome = .ok ids := hids
    exact ⟨_, rfl⟩

/-- The first forbidden name is where a list ends, with what the names before it have come to. -/
theorem enlistAll_of_barred (d : Dictionary) {before : List String} {last : String}
    (hbefore : ∀ name ∈ before, barred ignoreRules x name = false)
    (hlast : barred ignoreRules x last = true) (after : List String) :
    enlistAll ignoreRules d (before ++ last :: after) x =
      (.error (blankName d), (enlistAll ignoreRules d before x).2) := by
  induction before generalizing x with
  | nil =>
    simp only [List.nil_append, enlistAll, enlist_of_barred hlast]
  | cons name rest ih =>
    obtain ⟨hname, hrest⟩ := List.forall_mem_cons.1 hbefore
    obtain ⟨id, hid⟩ := exists_enlist_of_not_barred (d := d) hname
    have hbarred := barred_enlist ignoreRules d x name
    rw [List.cons_append, enlistAll, enlistAll]
    generalize enlist ignoreRules d name x = r at hid hbarred
    rcases r with ⟨outcome, x'⟩
    obtain rfl : outcome = .ok id := hid
    have hrest' : ∀ other ∈ rest, barred ignoreRules x' other = false :=
      fun other hother => (hbarred other).trans (hrest other hother)
    obtain ⟨ids, hids⟩ := exists_enlistAll (d := d) hrest'
    simp only [ih hrest' ((hbarred last).trans hlast)]
    generalize enlistAll ignoreRules d rest x' = r at hids
    rcases r with ⟨outcome, x''⟩
    obtain rfl : outcome = .ok ids := hids
    rfl

end Barred

namespace Call

variable {s : Call} {d : Dictionary} {list : List String}

/-- The rules of a dictionary forbid a name that is missing. -/
def Forbids (s : Call) (d : Dictionary) (name : String) : Prop :=
  s.connection.committed.idOf? d name = none ∧ s.connection.ignoresRules = false ∧
    isWritten name = false

instance (s : Call) (d : Dictionary) (name : String) : Decidable (s.Forbids d name) :=
  inferInstanceAs (Decidable (_ ∧ _ ∧ _))

theorem forbids_iff_barred {x : Table Entry}
    (hx : s.connection.committed.table (.dictionary d) = some x) (name : String) :
    s.Forbids d name ↔ barred s.connection.ignoresRules x name = true := by
  simp [Forbids, barred, Database.idOf?, Database.rows_of_table hx]

/-! ## Failures -/

/-- A list is resolved as its names are. -/
theorem resolveAll_eq (d : Dictionary) (list : List String) (s : Call) :
    (s.resolveAll d list).1 = (names.resolveEach d list (s.tell (.called .resolveAll))).1 ∧
      (s.resolveAll d list).2.connection =
        (names.resolveEach d list (s.tell (.called .resolveAll))).2.connection := by
  by_cases hlist : list = []
  · subst hlist
    exact ⟨rfl, (connection_tell _ s).symm⟩
  · rw [resolveAll, names.resolveAll_of_ne_nil d hlist]
    exact ⟨rfl, rfl⟩

/-- A failure at a name leaves the tables as the names before it have left them. -/
theorem resolveAll_of_error (hs : s.connection.transaction = none) {e : BoardError}
    (h : (s.resolveAll d list).1 = .error e) :
    ∃ before last after ids, list = before ++ last :: after ∧
      (s.resolveAll d before).1 = .ok ids ∧ (s.resolveAll d (before ++ [last])).1 = .error e ∧
      (s.resolveAll d list).2.connection.committed =
        (s.resolveAll d before).2.connection.committed := by
  obtain ⟨houtcome, hconnection⟩ := resolveAll_eq d list s
  have hstart := connection_tell (.called .resolveAll) s
  rcases heach : names.resolveEach d list (s.tell (.called .resolveAll)) with ⟨outcome, s'⟩
  rw [heach] at houtcome hconnection
  obtain rfl : outcome = .error e := houtcome.symm.trans h
  obtain ⟨before, last, after, ids, rfl, -, hbefore, hlast⟩ := names.runs_of_error d heach
  obtain ⟨houtcome', hconnection'⟩ := resolveAll_eq d before s
  rw [hbefore] at houtcome' hconnection'
  refine ⟨before, last.name, after, ids, rfl, houtcome', ?_, ?_⟩
  · rw [(resolveAll_eq d (before ++ [last.name]) s).1, names.resolveEach_append d _ hbefore,
      names.resolveEach_singleton, hlast]
    rfl
  cases hblocked : s.connection.commitBlocked with
  | true => rw [resolveAll_of_blocked hs hblocked, resolveAll_of_blocked hs hblocked]
  | false =>
    have hleads := (resolveEach_cases d before (s.tell (.called .resolveAll))).1
    rw [hbefore] at hleads
    have hidle := (hleads (hstart ▸ hs)).1
    have hfree := hleads.free (hstart ▸ hs) (hstart ▸ hblocked)
    rw [hconnection, hconnection']
    obtain ⟨-, hsame⟩ | ⟨id, hid, -⟩ := resolve_resolves d last.name hidle hfree
    · rw [show last.start.resolve d last.name = _ from hlast] at hsame
      exact hsame
    · rw [show last.start.resolve d last.name = _ from hlast] at hid
      exact nomatch hid

/-- Where nothing disturbs the call, a list without a forbidden name is resolved. -/
theorem exists_resolveAll (hs : s.Undisturbed) (h : ∀ name ∈ list, ¬ s.Forbids d name) :
    ∃ ids, (s.resolveAll d list).1 = .ok ids := by
  obtain ⟨x, hx, -⟩ := hs.plain (.dictionary d)
  rw [(comes_resolveAll hs hx list).1]
  refine exists_enlistAll fun name hname => ?_
  rw [← Bool.not_eq_true, ← forbids_iff_barred hx]
  exact h name hname

/-- Where nothing disturbs the call, it fails at the first forbidden name. -/
theorem resolveAll_of_forbids (hs : s.Undisturbed) {before : List String} {last : String}
    (hbefore : ∀ name ∈ before, ¬ s.Forbids d name) (hlast : s.Forbids d last)
    (after : List String) :
    (s.resolveAll d (before ++ last :: after)).1 = .error (blankName d) ∧
      (s.resolveAll d (before ++ last :: after)).2.connection.committed =
        (s.resolveAll d before).2.connection.committed := by
  obtain ⟨x, hx, -⟩ := hs.plain (.dictionary d)
  have hallowed : ∀ name ∈ before, barred s.connection.ignoresRules x name = false := by
    intro name hname
    rw [← Bool.not_eq_true, ← forbids_iff_barred hx]
    exact hbefore name hname
  have hbarred := enlistAll_of_barred d hallowed ((forbids_iff_barred hx last).1 hlast) after
  obtain ⟨hfails, harrives⟩ := comes_resolveAll hs hx (before ++ last :: after)
  obtain ⟨-, harrives'⟩ := comes_resolveAll hs hx before
  rw [hbarred] at hfails harrives
  exact ⟨hfails, harrives.tables.trans harrives'.tables.symm⟩

/-! ## Batches -/

/-- If a list is resolved, its missing names are entered in a dictionary with unique ids and names,
and with room for them, and nothing else changes. -/
def EntersMissing (d : Dictionary) (list : List String) (s : Call) : Prop :=
  ∀ x, s.connection.committed.table (.dictionary d) = some x → (x.rows.map Entry.id).Nodup →
    (x.rows.map Entry.name).Nodup →
    largestId (x.rows.map Entry.id) + (firstsBy id (x.rows.map Entry.name) list).length ≤
      greatestId →
    ∀ ids, (s.resolveAll d list).1 = .ok ids →
      ∃ added, Entered x list ids added ∧
        (s.resolveAll d list).2.connection.committed =
          s.connection.committed.setTable (.dictionary d)
            (some { x with rows := x.rows ++ added })

/-- Outside a transaction, a list of names that is resolved has its missing names entered, unless
others keep the connection from committing. If the list fails, for whatever reason, it does so at
one of its names, and the tables are those that the names before it leave if they are resolved
alone. Where nothing disturbs the call, it fails exactly if a name is forbidden, with the error for
bad input, and at the first such name. -/
theorem resolveAll_enters_missing (d : Dictionary) (list : List String) (s : Call)
    (hs : s.connection.transaction = none) :
    (s.connection.commitBlocked = false → EntersMissing d list s) ∧
      (∀ e, (s.resolveAll d list).1 = .error e →
        ∃ before last after ids, list = before ++ last :: after ∧
          (s.resolveAll d before).1 = .ok ids ∧ (s.resolveAll d (before ++ [last])).1 = .error e ∧
          (s.resolveAll d list).2.connection.committed =
            (s.resolveAll d before).2.connection.committed) ∧
      (s.Undisturbed →
        ((∃ e, (s.resolveAll d list).1 = .error e) ↔ ∃ name ∈ list, s.Forbids d name) ∧
        ∀ e, (s.resolveAll d list).1 = .error e → e = blankName d ∧
          ∃ before last after, list = before ++ last :: after ∧
            (∀ name ∈ before, ¬ s.Forbids d name) ∧ s.Forbids d last ∧
            (s.resolveAll d list).2.connection.committed =
              (s.resolveAll d before).2.connection.committed) := by
  refine ⟨?_, fun e he => resolveAll_of_error hs he, fun hfree => ?_⟩
  · intro hfree x hx hids hnames hroom ids hok
    obtain ⟨ids', hok', hresolved⟩ | ⟨e, -, -, he, -⟩ := resolveAll_resolves d list hs hfree
    · obtain rfl : ids = ids' := Except.ok.inj (hok.symm.trans hok')
      exact ⟨_, hresolved.entered hx hids hnames hroom, hresolved.enters hx⟩
    · exact nomatch hok.symm.trans he
  · by_cases hforbidden : ∃ name ∈ list, s.Forbids d name
    -- the list is split at the first forbidden name
    · have hsome : (list.find? fun name => decide (s.Forbids d name)).isSome := by
        simpa using hforbidden
      obtain ⟨last, hfind⟩ := Option.isSome_iff_exists.1 hsome
      obtain ⟨hlast, before, after, rfl, hbefore⟩ := List.find?_eq_some_iff_append.1 hfind
      have hlast' : s.Forbids d last := by simpa using hlast
      have hbefore' : ∀ name ∈ before, ¬ s.Forbids d name := by simpa using hbefore
      obtain ⟨hfails, htables⟩ := resolveAll_of_forbids hfree hbefore' hlast' after
      refine ⟨⟨fun _ => hforbidden, fun _ => ⟨_, hfails⟩⟩, fun e he => ?_⟩
      refine ⟨Except.error.inj (he.symm.trans hfails), before, last, after, rfl, hbefore', hlast',
        htables⟩
    · have hallowed : ∀ name ∈ list, ¬ s.Forbids d name :=
        fun name hname h => hforbidden ⟨name, hname, h⟩
      obtain ⟨ids, hids⟩ := exists_resolveAll hfree hallowed
      rw [hids]
      constructor
      · refine ⟨?_, fun h => absurd h hforbidden⟩
        rintro ⟨e, he⟩
        exact nomatch he
      · exact fun e he => nomatch he

/-- On the small store one new name of a list is entered for all its places, and a list with a blank
name fails there, after the name before it was entered. -/
theorem resolveAll_enters_missing_sample :
    let s : Call := .sample
    (∃ added, Entered { rows := [⟨1, "rust"⟩, ⟨2, "sql"⟩] } ["go", "rust", "go"] [3, 1, 3] added ∧
        added.map Entry.name = ["go"]) ∧
      (∃ e, (s.resolveAll .skill ["c", " ", "go"]).1 = .error e) ∧
      (s.resolveAll .skill ["c"]).1 = .ok [3] := by
  intro s
  have hfree : s.Undisturbed :=
    ⟨Cancel.Signal.live_of_quiet rfl rfl, ⟨⟨rfl, rfl, rfl⟩, rfl, rfl, rfl⟩,
      Database.sample_consistent.tables⟩
  obtain ⟨hbatch, -, -⟩ := resolveAll_enters_missing .skill ["go", "rust", "go"] s rfl
  obtain ⟨-, -, hfails⟩ := resolveAll_enters_missing .skill ["c", " ", "go"] s rfl
  obtain ⟨added, hentered, -⟩ := hbatch rfl _ rfl (by decide) (by decide) (by decide) [3, 1, 3]
    (by decide +kernel)
  refine ⟨⟨added, hentered, hentered.names⟩, (hfails hfree).1.2 ⟨" ", by simp, ?_⟩,
    by decide +kernel⟩
  decide

/-- While a foreign reader keeps the connection from committing, new names get an id that is handed
back before the commit is refused: two names get the same id, and neither is there afterwards. -/
theorem not_resolveAll_always_enters_missing :
    ¬ ∀ (d : Dictionary) (list : List String) (s : Call), s.connection.transaction = none →
      EntersMissing d list s := by
  intro h
  let s : Call := { connection := {
    committed := .sample, journal := .rollback, elsewhere := { reading := true } } }
  have hok : (s.resolveAll .city ["p", "q"]).1 = .ok [1, 1] := by decide +kernel
  obtain ⟨added, hentered, -⟩ := h .city ["p", "q"] s rfl {} rfl (by decide) (by decide) (by decide)
    [1, 1] hok
  have hsame : "p" = "q" :=
    (hentered.faithful (1, "p") (by decide) (1, "q") (by decide)).2 rfl
  exact absurd hsame (by decide)

end Call

end JobBoard
