import JobBoard.Proofs.Call.Request
import JobBoard.Proofs.Call.Unhindered
import Mathlib.Data.List.ReduceOption

/-!
# Looking names up all at once

Names can be looked up one after the other (`findEach`) or all in one statement. Where names are
unique both tell the same ids, in the order in which the names occur first
(`findIdsByNames_one_by_one`), and that is the order of no table. Where all names have an id,
resolving them tells these ids too (`answer_resolveAll`).
-/

set_option autoImplicit false

namespace JobBoard

open Observe Store

variable {d : Dictionary}

/-! ## Ids of names -/

namespace Store.Database

variable {db db' : Database}

/-- The order of the entries does not matter for the id of a name, where names are unique. -/
theorem idOf?_perm (hnames : ((db.rows (.dictionary d)).map Entry.name).Nodup)
    (hperm : (db'.rows (.dictionary d)).Perm (db.rows (.dictionary d))) (name : String) :
    db'.idOf? d name = db.idOf? d name := by
  have hnames' : ((db'.rows (.dictionary d)).map Entry.name).Nodup :=
    (hperm.map Entry.name).nodup_iff.2 hnames
  cases hid : db.idOf? d name with
  | none =>
    rw [idOf?_eq_none_iff] at hid ⊢
    intro e he
    exact hid e (hperm.mem_iff.1 he)
  | some id => exact idOf?_of_mem hnames' (hperm.mem_iff.2 (mem_rows_of_idOf? hid))

/-- Different names have different ids, where ids are unique. -/
theorem nodup_filterMap_idOf? (hids : ((db.rows (.dictionary d)).map Entry.id).Nodup)
    {list : List String} (hlist : list.Nodup) : (list.filterMap (db.idOf? d)).Nodup := by
  refine hlist.filterMap ?_
  intro name name' id hid hid'
  have hsame : (⟨id, name⟩ : Entry) = ⟨id, name'⟩ :=
    List.inj_on_of_nodup_map hids (mem_rows_of_idOf? hid) (mem_rows_of_idOf? hid') rfl
  exact congrArg Entry.name hsame

end Store.Database

namespace Call

variable {s : Call} {x : Table Entry}

/-! ## One after the other -/

/-- Looks names up one after the other, up to the first failure. -/
def findEach (d : Dictionary) : List String → Call → Stored Call (List (Option Int))
  | [], s => (.ok [], s)
  | name :: rest, s =>
    match s.findId d name with
    | (.error e, s) => (.error e, s)
    | (.ok id, s) =>
      match s.findEach d rest with
      | (.error e, s) => (.error e, s)
      | (.ok ids, s) => (.ok (id :: ids), s)

/-- Each look-up tells what the connection sees, because none of them changes that. -/
theorem answer_findEach (hs : s.Unhindered)
    (hx : s.connection.view.table (.dictionary d) = some x) (list : List String) :
    (s.findEach d list).1 = .ok (list.map (s.connection.view.idOf? d)) := by
  induction list generalizing s with
  | nil => rfl
  | cons name rest ih =>
    have hanswer := answer_findId hs hx name
    have hreads : Reads s (s.findId d name).2 := reads_ask _ s
    rcases hfind : s.findId d name with ⟨outcome, s'⟩
    rw [hfind] at hanswer hreads
    obtain rfl : outcome = .ok (s.connection.view.idOf? d name) := hanswer
    have hrest := ih (hreads.unhindered hs) (hreads.view ▸ hx)
    rw [hreads.view] at hrest
    rcases heach : s'.findEach d rest with ⟨outcome, s''⟩
    rw [heach] at hrest
    obtain rfl : outcome = .ok (rest.map (s.connection.view.idOf? d)) := hrest
    rw [findEach, hfind]
    simp only [heach, List.map_cons]

/-- Names that have ids are resolved to them. -/
theorem answer_resolveEach (hs : s.Unhindered)
    (hx : s.connection.view.table (.dictionary d) = some x) (list : List String)
    (hknown : ∀ name ∈ list, ∃ id, s.connection.view.idOf? d name = some id) :
    (names.resolveEach d list s).1 = .ok (list.filterMap (s.connection.view.idOf? d)) := by
  induction list generalizing s with
  | nil => rfl
  | cons name rest ih =>
    rw [List.forall_mem_cons] at hknown
    obtain ⟨⟨id, hid⟩, hknown⟩ := hknown
    obtain ⟨hanswer, hreads⟩ := resolve_of_idOf? hs hx hid
    rcases hresolve : s.resolve d name with ⟨outcome, s'⟩
    rw [hresolve] at hanswer hreads
    obtain rfl : outcome = .ok id := hanswer
    have hrest := ih (hreads.unhindered hs) (hreads.view ▸ hx) (hreads.view ▸ hknown)
    rw [hreads.view] at hrest
    rcases heach : names.resolveEach d rest s' with ⟨outcome, s''⟩
    rw [heach] at hrest
    obtain rfl : outcome = .ok (rest.filterMap (s.connection.view.idOf? d)) := hrest
    rw [NameStore.resolveEach, show names.resolve d name s = _ from hresolve]
    simp only [heach, List.filterMap_cons, hid]

theorem answer_resolveAll (hs : s.Unhindered)
    (hx : s.connection.view.table (.dictionary d) = some x) (list : List String)
    (hknown : ∀ name ∈ list, ∃ id, s.connection.view.idOf? d name = some id) :
    (s.resolveAll d list).1 = .ok (list.filterMap (s.connection.view.idOf? d)) := by
  cases list with
  | nil => rfl
  | cons name rest =>
    have htold := reads_tell (.called .resolveAll) s
    have heach := answer_resolveEach (htold.unhindered hs) (htold.view ▸ hx) (name :: rest)
      (htold.view ▸ hknown)
    rw [htold.view] at heach
    exact heach

/-! ## All at once -/

/-- The look-up of names tells the ids that the connection sees. -/
theorem answer_findIdsByNames (hs : s.Unhindered)
    (hx : s.connection.view.table (.dictionary d) = some x) {list : List String}
    (hlength : list.eraseDups.length ≤ Refusal.parameterLimit) :
    (s.findIdsByNames d list).1 = .ok (list.eraseDups.filterMap (s.connection.view.idOf? d)) := by
  rw [← firstsBy_id_nil] at hlength ⊢
  obtain ⟨ids, hids⟩ := exists_findIdsByNames hs hx hlength
  rw [hids, eq_of_findIdsByNames hids]

/-- Too many names are never looked up. -/
theorem findIdsByNames_of_many {list : List String}
    (hlength : Refusal.parameterLimit < list.eraseDups.length) (s : Call) :
    ∃ cause, (s.findIdsByNames d list).1 =
        .error (.internal (Activity.findNames d).text (some cause)) ∧
      (s.signal.Live → cause = .refused .tooManyParameters) := by
  rw [← firstsBy_id_nil] at hlength
  cases list with
  | nil => exact absurd hlength (Nat.not_lt_zero _)
  | cons name rest =>
    obtain ⟨cause, hcause, hlive⟩ := ask_of_many
      (q := entriesOfNames d (firstsBy id [] (name :: rest))) hlength
      (s.tell (.called .lookupRead))
    refine ⟨cause, ?_, fun h => hlive (live_tell h _)⟩
    simp only [findIdsByNames, answer_observed]
    rcases hask : (s.tell (.called .lookupRead)).ask
      (entriesOfNames d (firstsBy id [] (name :: rest))) with ⟨outcome, s'⟩
    rw [hask] at hcause
    obtain rfl : outcome = .error cause := hcause
    rfl

/-- With nothing in the way of a call, and names and ids unique in a dictionary, the look-up of a
list of names changes nothing and tells, unless there are too many different names, what looking
them up one after the other at their first occurrences tells, without those that have no id. No id
occurs twice in that. The order of the entries in the dictionary does not matter, and if all names
have an id, resolving them tells the same. If there are too many different names, the look-up always
fails. -/
theorem findIdsByNames_one_by_one (d : Dictionary) (list : List String) (s : Call)
    (x : Table Entry) (hs : s.Unhindered)
    (hx : s.connection.view.table (.dictionary d) = some x)
    (hnames : (x.rows.map Entry.name).Nodup) (hids : (x.rows.map Entry.id).Nodup) :
    let distinct := list.eraseDups
    let answered := s.findIdsByNames d list
    answered.2.connection.committed = s.connection.committed ∧
      answered.2.connection.view = s.connection.view ∧
      (distinct.length ≤ Refusal.parameterLimit →
        (∃ found : List (Option Int), (s.findEach d distinct).1 = .ok found ∧
          answered.1 = .ok found.reduceOption ∧ found.reduceOption.Nodup) ∧
        (∀ (s' : Call) (y : Table Entry), s'.Unhindered →
          s'.connection.view.table (.dictionary d) = some y → y.rows.Perm x.rows →
          (s'.findIdsByNames d list).1 = answered.1) ∧
        ((∀ name ∈ list, ∃ e ∈ x.rows, e.name = name) →
          (s.resolveAll d distinct).1 = answered.1)) ∧
      (Refusal.parameterLimit < distinct.length → ∀ s' : Call, ∃ cause,
        (s'.findIdsByNames d list).1 =
          .error (.internal (Activity.findNames d).text (some cause)) ∧
        (s'.signal.Live → cause = .refused .tooManyParameters)) := by
  intro distinct answered
  have hreads : Reads s answered.2 := reads_findIdsByNames d list s
  refine ⟨hreads.committed, hreads.view, fun hlength => ?_, findIdsByNames_of_many⟩
  have hrows : s.connection.view.rows (.dictionary d) = x.rows := Database.rows_of_table hx
  have hanswer : answered.1 = .ok (distinct.filterMap (s.connection.view.idOf? d)) :=
    answer_findIdsByNames hs hx hlength
  have hdistinct : distinct.Nodup := nodup_eraseDups list
  refine ⟨?_, ?_, ?_⟩
  · refine ⟨distinct.map (s.connection.view.idOf? d), answer_findEach hs hx distinct, ?_⟩
    have hreduce : (distinct.map (s.connection.view.idOf? d)).reduceOption =
        distinct.filterMap (s.connection.view.idOf? d) := by
      rw [List.reduceOption, List.filterMap_map]
      rfl
    rw [hreduce]
    exact ⟨hanswer, Database.nodup_filterMap_idOf? (hrows ▸ hids) hdistinct⟩
  · intro s' y hs' hy hperm
    have hperm' : (s'.connection.view.rows (.dictionary d)).Perm
        (s.connection.view.rows (.dictionary d)) := by
      rw [hrows, Database.rows_of_table hy]
      exact hperm
    rw [answer_findIdsByNames hs' hy hlength, hanswer,
      funext (Database.idOf?_perm (hrows ▸ hnames) hperm')]
  · intro hknown
    rw [hanswer]
    refine answer_resolveAll hs hx distinct ?_
    intro name hname
    obtain ⟨e, he, rfl⟩ := hknown name (List.mem_eraseDups.1 hname)
    exact ⟨e.id, Database.idOf?_of_mem (hrows ▸ hnames) (hrows ▸ he)⟩

/-- On the small store, of a list with a name twice and one in other letters, the known names are
told once each in the order of the list, and resolved to the same ids. -/
theorem findIdsByNames_one_by_one_sample :
    (sample.findIdsByNames .skill ["sql", "Rust", "rust", "sql"]).1 = .ok [2, 1] ∧
      (sample.resolveAll .skill ["sql", "rust"]).1 = .ok [2, 1] := by
  have hanswer : ∀ list found, list.eraseDups.length ≤ Refusal.parameterLimit →
      (sample.findEach .skill list.eraseDups).1 = .ok found →
      (sample.findIdsByNames .skill list).1 = .ok found.reduceOption := by
    intro list found hlength hfound
    obtain ⟨-, -, h, -⟩ := findIdsByNames_one_by_one .skill list sample _ sample_unhindered rfl
      (by decide) (by decide)
    obtain ⟨⟨found', hfound', hids, -⟩, -⟩ := h hlength
    obtain rfl := Except.ok.inj (hfound.symm.trans hfound')
    exact hids
  constructor
  · exact hanswer _ [some 2, none, some 1] (by decide) (by decide +kernel)
  · obtain ⟨-, -, h, -⟩ := findIdsByNames_one_by_one .skill ["sql", "rust"] sample _
      sample_unhindered rfl (by decide) (by decide)
    have hresolved := (h (by decide)).2.2 (by decide)
    exact hresolved.trans (hanswer _ [some 2, some 1] (by decide) (by decide +kernel))

end Call

end JobBoard
