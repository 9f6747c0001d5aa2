import JobBoard.Proofs.Call.Undisturbed
import JobBoard.Proofs.Names.Canonical
import JobBoard.Proofs.Store.Conformance

/-!
# Blank names

A name is blank for the normal form if it has no character but white space, and for the rule of its
table if nothing comes after its spaces, or a NUL comes first. Where the two agree is told by
`isWritten_agrees_iff`. The rule decides whether a new name is created (`Unobstructed.resolve`), so
a tab is (`not_resolve_refuses_blank`), and a name in normal form is unless it begins with a NUL.
The main theorem is `resolve_creates_written`.
-/

set_option autoImplicit false

namespace JobBoard

open Observe Store Text

/-! ## Two notions of blank -/

/-- A name without the spaces before it. -/
def unspaced (name : String) : List Char := name.toList.dropWhile (· == ' ')

theorem head?_unspaced {name : String} {c : Char} (h : (unspaced name).head? = some c) :
    c ≠ ' ' := by
  have hnot := List.head?_dropWhile_not (· == ' ') name.toList
  rw [show name.toList.dropWhile (· == ' ') = unspaced name from rfl, h] at hnot
  simpa using hnot

/-- A name is written if something comes after its spaces, other than a NUL. -/
theorem isWritten_iff (name : String) :
    isWritten name = true ↔ ∃ c ∈ (unspaced name).head?, c ≠ '\x00' := by
  have hshape : isWritten name = !(untilNul ((unspaced name).rdropWhile (· == ' '))).isEmpty := rfl
  rw [hshape]
  cases hrest : unspaced name with
  | nil => simp [untilNul]
  | cons c rest =>
    have hc : c ≠ ' ' := head?_unspaced (by rw [hrest]; rfl)
    obtain ⟨rest', hkept⟩ : ∃ rest', (c :: rest).rdropWhile (· == ' ') = c :: rest' := by
      have hne : (c :: rest).rdropWhile (· == ' ') ≠ [] := by
        rw [Ne, List.rdropWhile_eq_nil_iff]
        intro h
        exact hc (by simpa using h c List.mem_cons_self)
      obtain ⟨b, rest', hb⟩ := List.exists_cons_of_ne_nil hne
      obtain ⟨tail, htail⟩ := List.rdropWhile_prefix (· == ' ') (c :: rest)
      rw [hb, List.cons_append, List.cons.injEq] at htail
      exact ⟨rest', htail.1 ▸ hb⟩
    rw [hkept]
    by_cases hnul : c = '\x00' <;> simp [untilNul, hnul]

/-- Spaces are blank, so what comes after them decides whether a name is blank. -/
theorem normalizeName_eq_none_iff_unspaced (name : String) :
    normalizeName name = none ↔ ∀ c ∈ unspaced name, isBlank c = true := by
  rw [normalizeName_eq_none_iff_blank]
  constructor
  · exact fun h c hc => h c ((List.dropWhile_sublist _).subset hc)
  · intro h c hc
    rw [← List.takeWhile_append_dropWhile (p := (· == ' ')) (l := name.toList)] at hc
    rcases List.mem_append.1 hc with hspace | hrest
    · obtain rfl : c = ' ' := by simpa using List.mem_takeWhile_imp hspace
      decide
    · exact h c hrest

/-- The two notions agree on a name of spaces alone, and on one with something in it that is not
blank, unless a NUL is the first to come after the spaces. -/
theorem isWritten_agrees_iff (name : String) :
    (isWritten name = false ↔ normalizeName name = none) ↔
      ∀ c ∈ (unspaced name).head?, c ≠ '\x00' ∧ ∃ b ∈ unspaced name, isBlank b = false := by
  rw [← Bool.not_eq_true, isWritten_iff, normalizeName_eq_none_iff_unspaced]
  cases unspaced name with
  | nil => simp
  | cons c rest =>
    by_cases hnul : c = '\x00'
    · subst hnul
      have hletter : isBlank '\x00' = false := by decide
      simp [hletter]
    · cases hc : isBlank c <;> simp [hnul, hc]

/-- A name in normal form is written unless it begins with a NUL. -/
theorem isWritten_of_isNormal {name : String} (h : IsNormal name.toList) :
    isWritten name = true ↔ name.toList.head? ≠ some '\x00' := by
  rw [isWritten_iff, unspaced]
  cases hname : name.toList with
  | nil => exact absurd hname h.nonempty
  | cons c rest =>
    have hc : isBlank c = false := h.head c (by rw [hname]; rfl)
    have hspace : (c == ' ') = false := by
      rw [beq_eq_false_iff_ne]
      rintro rfl
      exact nomatch hc
    rw [List.dropWhile_cons, hspace]
    simp

namespace Call

/-! ## Creating names -/

/-- Where nothing obstructs a call, on plain tables whose rules are in force, a name that is not
there is created, as the only change, if something other than a NUL comes first after its spaces. If
not, it is bad input and nothing changes; so a name of spaces alone is never created. This separates
the names that have a normal form from those that have none only where the two notions of blank
agree. A name in normal form is created unless it begins with a NUL. -/
theorem resolve_creates_written (d : Dictionary) (name : String) (s : Call) (hs : s.Unobstructed)
    (hdb : s.connection.view.Plain) (hrules : s.connection.ignoresRules = false)
    (hnew : ∀ e ∈ s.connection.view.rows (.dictionary d), e.name ≠ name) :
    let rows := s.connection.view.rows (.dictionary d)
    let r := s.resolve d name
    ((∃ c ∈ (unspaced name).head?, c ≠ '\x00') →
      ∃ id, r.1 = .ok id ∧ id ∉ rows.map Entry.id ∧
        r.2.connection.view.rows (.dictionary d) = rows ++ [⟨id, name⟩] ∧
        (∀ t, t ≠ .dictionary d → r.2.connection.view.table t = s.connection.view.table t) ∧
        (s.connection.transaction = none →
          r.2.connection.committed = r.2.connection.view)) ∧
    ((∀ c ∈ (unspaced name).head?, c = '\x00') →
      r.1 = .error (blankName d) ∧ r.2.connection.view = s.connection.view ∧
        r.2.connection.committed = s.connection.committed) ∧
    (((∃ message, r.1 = .error (.badRequest message)) ↔ normalizeName name = none) ↔
      ∀ c ∈ (unspaced name).head?, c ≠ '\x00' ∧ ∃ b ∈ unspaced name, isBlank b = false) ∧
    ∀ list, name ∈ normalizeNames list →
      ((∃ id, r.1 = .ok id) ↔ name.toList.head? ≠ some '\x00') := by
  intro rows r
  obtain ⟨x, hx, -⟩ := hdb (.dictionary d)
  have hrows : rows = x.rows := Database.rows_of_table hx
  have hnew' : ∀ e ∈ x.rows, e.name ≠ name := hrows ▸ hnew
  have hcases := (hs.resolve hdb hx hnew').2
  rw [hrules, Bool.false_or] at hcases
  have hwritten := isWritten_iff name
  have hok : (∃ id, r.1 = .ok id) ↔ isWritten name = true := by
    rcases hcases with ⟨h, hanswer, -⟩ | ⟨h, hanswer, -⟩
    · exact iff_of_true ⟨_, hanswer⟩ h
    · rw [show r.1 = _ from hanswer, h]
      simp
  have hbad : (∃ message, r.1 = .error (.badRequest message)) ↔ isWritten name = false := by
    rcases hcases with ⟨h, hanswer, -⟩ | ⟨h, hanswer, -⟩
    · rw [show r.1 = _ from hanswer, h]
      simp
    · exact iff_of_true ⟨_, hanswer⟩ h
  refine ⟨?_, ?_, ?_, ?_⟩
  · intro hfirst
    obtain ⟨-, hanswer, hview⟩ | ⟨h, -⟩ := hcases
    · refine ⟨_, hanswer, hrows ▸ nextId_not_mem _, ?_, ?_, ?_⟩
      · rw [hview, Database.rows_withRow hx]
        rfl
      · intro t ht
        rw [hview]
        exact Database.table_setTable_of_ne _ _ ht
      · intro hidle
        exact (Connection.view_of_alone (leads_resolve d name s hidle).1).symm
    · rw [hwritten.2 hfirst] at h
      exact nomatch h
  · intro hfirst
    obtain ⟨h, -⟩ | ⟨-, hrefused⟩ := hcases
    · obtain ⟨c, hc, hnul⟩ := hwritten.1 h
      exact absurd (hfirst c hc) hnul
    · exact hrefused
  · rw [hbad]
    exact isWritten_agrees_iff name
  · intro list hlist
    rw [hok]
    exact isWritten_of_isNormal (isNormal_of_mem_normalizeNames hlist)

theorem sample_unobstructed : sample.Unobstructed where
  live := Cancel.Signal.live_of_quiet rfl rfl
  connection := ⟨rfl, rfl, rfl, fun _ => rfl⟩

/-- On the small store a name is created and spaces are not. -/
theorem resolve_creates_written_sample :
    (∃ id, (sample.resolve .skill " go").1 = .ok id ∧ id ∉ [1, 2] ∧
      (sample.resolve .skill " go").2.connection.view.rows (.dictionary .skill) =
        [⟨1, "rust"⟩, ⟨2, "sql"⟩, ⟨id, " go"⟩]) ∧
    (sample.resolve .skill "  ").1 = .error (blankName .skill) ∧
    ∃ id, (sample.resolve .skill "Go").1 = .ok id := by
  have hplain : sample.connection.view.Plain := Database.sample_consistent.tables
  obtain ⟨hcreated, -⟩ := resolve_creates_written .skill " go" sample sample_unobstructed hplain rfl
    (by decide)
  obtain ⟨-, hrefused, -⟩ := resolve_creates_written .skill "  " sample sample_unobstructed hplain
    rfl (by decide)
  obtain ⟨-, -, -, hnormal⟩ := resolve_creates_written .skill "Go" sample sample_unobstructed hplain
    rfl (by decide)
  have hnone : (unspaced "  ").head? = none := by decide
  obtain ⟨id, hid, hfree, hrows, -⟩ := hcreated ⟨'g', by decide, by decide⟩
  refine ⟨⟨id, hid, hfree, hrows⟩, (hrefused ?_).1, (hnormal ["Go"] (by decide)).2 (by decide)⟩
  rw [hnone]
  exact nofun

/-- A tab is blank but no space, so it is created. -/
theorem not_resolve_refuses_blank :
    ¬ ∀ (d : Dictionary) (name : String) (s : Call), s.Undisturbed →
      s.connection.committed.Conforms → s.connection.ignoresRules = false →
      (∀ e ∈ s.connection.committed.rows (.dictionary d), e.name ≠ name) →
      ((∃ message, (s.resolve d name).1 = .error (.badRequest message)) ↔
        normalizeName name = none) := by
  intro h
  have hcreated : (sample.resolve .skill "\t").1 = .ok 3 := by decide +kernel
  obtain ⟨message, hrefused⟩ := (h .skill "\t" sample sample_undisturbed Database.sample_conforms
    rfl (by decide)).2 (by decide)
  rw [hcreated] at hrefused
  exact nomatch hrefused

end Call

end JobBoard
