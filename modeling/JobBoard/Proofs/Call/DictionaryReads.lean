import JobBoard.Proofs.Call.NameLookup
import JobBoard.Proofs.Text.ByteOrder

/-!
# Reading a dictionary

A dictionary can be read by one id (`getById`), by a list of ids (`getByIds`) or as a whole
(`listAll`). With nothing in the way of a call, each of the three tells a part of the rows that the
connection sees (`answer_getById` and so on), the lists in the order of ids and of names. Where ids
and names are unique, what the lists hold is therefore what is found one by one
(`dictionary_reads_agree`).
-/

set_option autoImplicit false

namespace JobBoard

open Observe Store Text

/-! ## Sorting by a key -/

section Sorting

variable {α β : Type} [LinearOrder β] {le : α → α → Bool} {key : α → β}

/-- Sorted by keys that are all different, items are in strict order. -/
theorem pairwise_lt_mergeSort (hle : ∀ a b, le a b = true ↔ key a ≤ key b) {l : List α}
    (h : (l.map key).Nodup) : (l.mergeSort le).Pairwise fun a b => key a < key b := by
  refine pairwise_mergeSort_of_nodup_map ?_ ?_ ?_ h
  · intro a b c hab hbc
    rw [hle] at hab hbc ⊢
    exact hab.trans hbc
  · intro a b
    rw [Bool.or_eq_true, hle, hle]
    exact le_total _ _
  · intro a b hab hne
    exact lt_of_le_of_ne ((hle a b).1 hab) hne

/-- Then the order before sorting does not matter. -/
theorem mergeSort_eq_of_perm (hle : ∀ a b, le a b = true ↔ key a ≤ key b) {l l' : List α}
    (h : (l.map key).Nodup) (hperm : l'.Perm l) : l'.mergeSort le = l.mergeSort le := by
  have h' : (l'.map key).Nodup := (hperm.map key).nodup_iff.2 h
  have hsorted : (l'.mergeSort le).Perm (l.mergeSort le) :=
    (List.mergeSort_perm l' le).trans (hperm.trans (List.mergeSort_perm l le).symm)
  refine List.Perm.eq_of_pairwise ?_ (pairwise_lt_mergeSort hle h') (pairwise_lt_mergeSort hle h)
    hsorted
  intro a b _ _ hab hba
  exact absurd hba hab.not_gt

end Sorting

namespace Call

variable {s : Call} {d : Dictionary} {x : Table Entry}

/-! ## What each read tells -/

/-- An announced question about the entries of a dictionary is answered. -/
theorem answer_observed_ofEntries {α : Type} (op : Operation) (a : Activity) {n : Nat}
    (f : List Entry → α) (hs : s.Unhindered)
    (hx : s.connection.view.table (.dictionary d) = some x) (hn : n ≤ Refusal.parameterLimit) :
    (observed tell op (fun s => during a (s.ask (ofEntries d n f))) s).1 = .ok (f x.rows) := by
  have htold := reads_tell (.called op) s
  have hready := htold.unhindered hs
  have hrun := run_ofEntries_of_table (n := n) (f := f) (htold.view ▸ hx)
  rw [Database.rows_of_table (htold.view ▸ hx)] at hrun
  rw [answer_observed, during_eq_ok_iff]
  exact answer_ask hready.live hready.readable hready.unlocked hn hrun

theorem answer_listAll (hs : s.Unhindered)
    (hx : s.connection.view.table (.dictionary d) = some x) :
    (s.listAll d).1 = .ok (x.rows.mergeSort fun a b => decide (a.name ≤ b.name)) :=
  answer_observed_ofEntries .lookupRead (.listAll d) _ hs hx (Nat.zero_le _)

theorem answer_getByIds (hs : s.Unhindered)
    (hx : s.connection.view.table (.dictionary d) = some x) {ids : List Int}
    (hlength : ids.length ≤ Refusal.parameterLimit) :
    (s.getByIds d ids).1 =
      .ok ((x.rows.filter fun e => ids.contains e.id).mergeSort fun a b => a.id ≤ b.id) := by
  cases ids with
  | nil =>
    have hnone : x.rows.filter (fun e => ([] : List Int).contains e.id) = [] :=
      List.filter_eq_nil_iff.2 fun _ _ => Bool.false_ne_true
    rw [hnone, List.mergeSort_nil]
    rfl
  | cons id rest => exact answer_observed_ofEntries .lookupRead (.getMany d) _ hs hx hlength

theorem answer_getById (hs : s.Unhindered)
    (hx : s.connection.view.table (.dictionary d) = some x) (id : Int) :
    (s.getById d id).1 =
      match x.rows.find? (·.id == id) with
      | some e => .ok e
      | none => .error (.notFound (d.text ++ " with id=" ++ toString id)) := by
  have hanswer := answer_observed_ofEntries .lookupRead (.getOne d) (n := 1)
    (fun entries => entries.find? (·.id == id)) hs hx (by decide)
  rw [answer_observed] at hanswer
  rw [getById, answer_observed, entryOfId]
  generalize during (.getOne d) (ask _ _) = r at hanswer ⊢
  rcases r with ⟨outcome, s'⟩
  obtain rfl : outcome = _ := hanswer
  cases x.rows.find? (·.id == id) <;> rfl

/-- Too many ids are never looked up. -/
theorem getByIds_of_many (hlive : s.signal.Live) {ids : List Int}
    (hlength : Refusal.parameterLimit < ids.length) :
    (s.getByIds d ids).1 =
      .error (.internal (Activity.getMany d).text (some (.refused .tooManyParameters))) := by
  cases ids with
  | nil => exact absurd hlength (Nat.not_lt_zero _)
  | cons id rest =>
    obtain ⟨cause, hcause, hmany⟩ := ask_of_many (q := entriesOfIds d (id :: rest)) hlength
      (s.tell (.called .lookupRead))
    obtain rfl := hmany (live_tell hlive _)
    rw [getByIds, answer_observed]
    · exact during_of_error (.getMany d) hcause
    · exact nofun

/-! ## The reads together -/

/-- One row at most has an id, and that is the one that is found. -/
theorem getById_eq_ok_iff (hs : s.Unhindered)
    (hx : s.connection.view.table (.dictionary d) = some x) (hids : (x.rows.map Entry.id).Nodup)
    (id : Int) (e : Entry) : (s.getById d id).1 = .ok e ↔ e ∈ x.rows ∧ e.id = id := by
  have hfind := find?_eq_some_iff_of_nodup_map hids id e
  rw [← hfind, answer_getById hs hx]
  cases x.rows.find? (·.id == id) <;> simp

theorem getById_eq_notFound_iff (hs : s.Unhindered)
    (hx : s.connection.view.table (.dictionary d) = some x) (id : Int) :
    (s.getById d id).1 = .error (.notFound (d.text ++ " with id=" ++ toString id)) ↔
      id ∉ x.rows.map Entry.id := by
  rw [answer_getById hs hx]
  cases hfound : x.rows.find? (·.id == id) with
  | none =>
    rw [List.find?_eq_none] at hfound
    simpa using hfound
  | some e =>
    have he : e.id = id := by simpa using List.find?_some hfound
    have hmem : id ∈ x.rows.map Entry.id :=
      List.mem_map.2 ⟨e, List.mem_of_find?_eq_some hfound, he⟩
    simp only [hmem, not_true, iff_false]
    exact nofun

/-- With nothing in the way of a call, and names and ids unique in a dictionary, a list of ids is
answered with the rows that are found for the ids one by one, each row once and in the order of the
ids; too long a list is an internal error. The list of all entries has each row once, in the order
of the bytes of the names. So the ids of that list lead back to it, as far as they are not too many,
and an id is not found exactly if it is not in it. None of the reads changes anything. -/
theorem dictionary_reads_agree (d : Dictionary) (ids : List Int) (s : Call) (x : Table Entry)
    (hs : s.Unhindered) (hx : s.connection.view.table (.dictionary d) = some x)
    (hnames : (x.rows.map Entry.name).Nodup) (hids : (x.rows.map Entry.id).Nodup) :
    (ids.length ≤ Refusal.parameterLimit →
      ∃ es, (s.getByIds d ids).1 = .ok es ∧
        (∀ e, e ∈ es ↔ ∃ id ∈ ids, (s.getById d id).1 = .ok e) ∧
        es.Pairwise fun a b => a.id < b.id) ∧
    (Refusal.parameterLimit < ids.length →
      (s.getByIds d ids).1 =
        .error (.internal (Activity.getMany d).text (some (.refused .tooManyParameters)))) ∧
    (∃ all, (s.listAll d).1 = .ok all ∧ all.Perm x.rows ∧
      (all.Pairwise fun a b => utf8 a.name < utf8 b.name) ∧
      (all.length ≤ Refusal.parameterLimit →
        ∃ es, (s.getByIds d (all.map Entry.id)).1 = .ok es ∧ es.Perm all) ∧
      ∀ id, (s.getById d id).1 = .error (.notFound (d.text ++ " with id=" ++ toString id)) ↔
        id ∉ all.map Entry.id) ∧
    (∀ id, Reads s (s.getById d id).2) ∧ Reads s (s.getByIds d ids).2 ∧
      Reads s (s.listAll d).2 := by
  have hsorted := List.mergeSort_perm x.rows fun a b => decide (a.name ≤ b.name)
  refine ⟨fun hlength => ?_, getByIds_of_many hs.live, ?_, fun id => reads_getById d id s,
    reads_getByIds d ids s, reads_listAll d s⟩
  · refine ⟨_, answer_getByIds hs hx hlength, ?_, ?_⟩
    · intro e
      simp only [getById_eq_ok_iff hs hx hids, List.mem_mergeSort, List.mem_filter,
        List.contains_iff_mem]
      constructor
      · rintro ⟨he, hlisted⟩
        exact ⟨e.id, hlisted, he, rfl⟩
      · rintro ⟨id, hlisted, he, rfl⟩
        exact ⟨he, hlisted⟩
    · exact pairwise_lt_mergeSort (by simp) ((List.filter_sublist.map Entry.id).nodup hids)
  · refine ⟨_, answer_listAll hs hx, hsorted, ?_, ?_, ?_⟩
    · refine (pairwise_lt_mergeSort (by simp) hnames).imp ?_
      intro a b hab
      exact (utf8_lt_utf8_iff a.name b.name).2 hab
    · intro hlength
      refine ⟨_, answer_getByIds hs hx (by rwa [List.length_map]), ?_⟩
      have hall : x.rows.filter (fun e => ((x.rows.mergeSort fun a b =>
          decide (a.name ≤ b.name)).map Entry.id).contains e.id) = x.rows := by
        rw [List.filter_eq_self]
        intro e he
        rw [List.contains_iff_mem]
        exact List.mem_map_of_mem (List.mem_mergeSort.2 he)
      rw [hall]
      exact (List.mergeSort_perm x.rows _).trans hsorted.symm
    · intro id
      rw [getById_eq_notFound_iff hs hx, (hsorted.map Entry.id).mem_iff]

/-- On the small store, a repeated id and an unknown one are no trouble, but too many are, and every
skill that is listed is found. -/
theorem dictionary_reads_agree_sample :
    (∃ es, (sample.getByIds .skill [2, 7, 2, 1]).1 = .ok es ∧ ⟨2, "sql"⟩ ∈ es ∧
      es.Pairwise fun a b => a.id < b.id) ∧
    (sample.getByIds .skill (List.replicate 32767 1)).1 =
      .error (.internal (Activity.getMany .skill).text (some (.refused .tooManyParameters))) ∧
    ∃ all, (sample.listAll .skill).1 = .ok all ∧ all.Perm [⟨1, "rust"⟩, ⟨2, "sql"⟩] := by
  obtain ⟨hmany, -, ⟨all, hall, hperm, -⟩, -⟩ := dictionary_reads_agree .skill [2, 7, 2, 1] sample
    _ sample_unhindered rfl (by decide) (by decide)
  obtain ⟨es, hes, hmem, hsorted⟩ := hmany (by decide)
  obtain ⟨-, hlong, -⟩ := dictionary_reads_agree .skill (List.replicate 32767 1) sample
    _ sample_unhindered rfl (by decide) (by decide)
  have hsql : (⟨2, "sql"⟩ : Entry) ∈ es := (hmem _).2 ⟨2, by decide, by decide +kernel⟩
  have hlength : Refusal.parameterLimit < (List.replicate 32767 (1 : Int)).length := by
    rw [List.length_replicate]
    decide
  exact ⟨⟨es, hes, hsql, hsorted⟩, hlong hlength, all, hall, hperm⟩

end Call

end JobBoard
