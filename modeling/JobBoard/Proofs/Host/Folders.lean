import JobBoard.Host.Folders
import Mathlib.Data.List.Basic

/-!
# Paths that were made

A path is walked one step after another (`walk_cons_eq_ok_iff`), so one that leads somewhere still
does when folders are added (`Within.walk`). Once the folder of a path is made, the path leads to it
(`walk_of_makePath`).
-/

set_option autoImplicit false

namespace JobBoard.Host.Folders

/-- One step from a folder: it stays for a dot, leaves for a double dot, and otherwise enters what
is there under a name of fair length. -/
inductive Goes (f : Folders) (place : List String) : String → List String → Prop where
  | stay : Goes f place "." place
  | leave : Goes f place ".." place.dropLast
  | enter {name : String} (dot : name ≠ ".") (up : name ≠ "..")
      (short : name.utf8ByteSize ≤ nameLimit) (there : f.has (place ++ [name]) = true) :
      Goes f place name (place ++ [name])

theorem walk_cons_eq_ok_iff {f : Folders} {place target : List String} {c : String}
    {rest : List String} : f.walk place (c :: rest) = .ok target ↔
      f.isFolder place = true ∧ ∃ next, f.Goes place c next ∧ f.walk next rest = .ok target := by
  rw [walk]
  constructor
  · intro h
    split_ifs at h with hfolder hdot hup hlong hthere
    all_goals rw [Bool.not_eq_true, Bool.not_eq_false'] at hfolder
    · exact ⟨hfolder, place, hdot ▸ .stay, h⟩
    · exact ⟨hfolder, place.dropLast, hup ▸ .leave, h⟩
    · exact ⟨hfolder, place ++ [c], .enter hdot hup (Nat.le_of_not_lt hlong) hthere, h⟩
  · rintro ⟨hfolder, next, hgoes, h⟩
    cases hgoes with
    | stay => simpa [hfolder] using h
    | leave => simpa [hfolder] using h
    | enter hdot hup hshort hthere =>
      simpa [hfolder, hdot, hup, Nat.not_lt_of_le hshort, hthere] using h

/-- The way to the last step, and the last step. -/
theorem walk_append_singleton {f : Folders} {place middle target : List String} {c : String}
    {front : List String} (hfront : f.walk place front = .ok middle)
    (hfolder : f.isFolder middle = true) (hgoes : f.Goes middle c target) :
    f.walk place (front ++ [c]) = .ok target := by
  induction front generalizing place with
  | nil =>
    obtain rfl : place = middle := Except.ok.inj hfront
    exact walk_cons_eq_ok_iff.mpr ⟨hfolder, target, hgoes, rfl⟩
  | cons d front ih =>
    obtain ⟨hplace, next, hnext, hrest⟩ := walk_cons_eq_ok_iff.mp hfront
    exact walk_cons_eq_ok_iff.mpr ⟨hplace, next, hnext, ih hrest⟩

/-! ## More folders -/

/-- Folders may have been added; the files are the same. -/
structure Within (f g : Folders) : Prop where
  folders : f.folders ⊆ g.folders
  files : g.files = f.files

theorem Within.isFolder {f g : Folders} (h : Within f g) {place : List String}
    (hf : f.isFolder place = true) : g.isFolder place = true := by
  simp only [Folders.isFolder, Bool.or_eq_true, List.contains_iff_mem] at hf ⊢
  exact hf.imp_right fun hmem => h.folders hmem

theorem Within.has {f g : Folders} (h : Within f g) {place : List String}
    (hf : f.has place = true) : g.has place = true := by
  simp only [Folders.has, Folders.file?, h.files, Bool.or_eq_true] at hf ⊢
  exact hf.imp_left h.isFolder

theorem Within.goes {f g : Folders} (h : Within f g) {place next : List String} {c : String}
    (hf : f.Goes place c next) : g.Goes place c next := by
  cases hf with
  | stay => exact .stay
  | leave => exact .leave
  | enter hdot hup hshort hthere => exact .enter hdot hup hshort (h.has hthere)

theorem Within.walk {f g : Folders} (h : Within f g) {place target path : List String}
    (hf : f.walk place path = .ok target) : g.walk place path = .ok target := by
  induction path generalizing place with
  | nil => exact hf
  | cons c path ih =>
    obtain ⟨hfolder, next, hgoes, hrest⟩ := walk_cons_eq_ok_iff.mp hf
    exact walk_cons_eq_ok_iff.mpr ⟨h.isFolder hfolder, next, h.goes hgoes, ih hrest⟩

/-! ## Making folders -/

/-- What can be made at a place has a name of its own there, and the way to it leads to a folder. -/
theorem exists_of_reach {f : Folders} {path place : List String} (h : f.reach path = .ok place) :
    ∃ front c middle, path = front ++ [c] ∧ f.walk [] front = .ok middle ∧
      f.isFolder middle = true ∧ c ≠ "." ∧ c ≠ ".." ∧ c.utf8ByteSize ≤ nameLimit ∧
      place = middle ++ [c] := by
  rw [reach] at h
  cases hfront : f.walk [] path.dropLast with
  | error problem =>
    rw [hfront] at h
    exact nomatch h
  | ok middle =>
    rw [hfront] at h
    dsimp only at h
    split_ifs at h with hfolder hdots hlong
    rw [Bool.or_eq_true, decide_eq_true_eq, decide_eq_true_eq, not_or] at hdots
    rw [Bool.not_eq_true, Bool.not_eq_false'] at hfolder
    cases hlast : path.getLast? with
    | none =>
      rw [hlast] at hdots
      exact absurd rfl hdots.1
    | some c =>
      rw [hlast] at h hdots hlong
      obtain ⟨hne, rfl⟩ := List.mem_getLast?_eq_getLast hlast
      exact ⟨path.dropLast, path.getLast hne, middle, (List.dropLast_append_getLast hne).symm,
        hfront, hfolder, hdots.1, hdots.2, Nat.le_of_not_lt hlong, (Except.ok.inj h).symm⟩

/-- A new folder is entered by the last step of the path it was made for. -/
theorem walk_of_makeFolder {f made : Folders} {path : List String}
    (h : f.makeFolder path = .ok made) : ∃ place, made.walk [] path = .ok place := by
  rw [makeFolder] at h
  cases hreach : f.reach path with
  | error problem =>
    rw [hreach] at h
    exact nomatch h
  | ok place =>
    rw [hreach] at h
    dsimp only at h
    split_ifs at h
    obtain ⟨front, c, middle, rfl, hfront, hfolder, hdot, hup, hshort, rfl⟩ :=
      exists_of_reach hreach
    obtain rfl := Except.ok.inj h
    -- the way to the new folder is still there, and now its last step has somewhere to go
    have hwithin : Within f { f with folders := f.folders ++ [middle ++ [c]] } :=
      ⟨List.subset_append_left _ _, rfl⟩
    have hthere : Folders.has { f with folders := f.folders ++ [middle ++ [c]] } (middle ++ [c])
        = true := by
      simp [Folders.has, Folders.isFolder]
    exact ⟨_, walk_append_singleton (hwithin.walk hfront) (hwithin.isFolder hfolder)
      (.enter hdot hup hshort hthere)⟩

theorem walk_of_ensureFolder {f g : Folders} {path : List String}
    (h : f.ensureFolder path = (.ok (), g)) : ∃ place, g.walk [] path = .ok place := by
  rw [ensureFolder] at h
  cases hmade : f.makeFolder path with
  | ok made =>
    rw [hmade] at h
    obtain ⟨-, rfl⟩ := Prod.mk.inj h
    exact walk_of_makeFolder hmade
  | error problem =>
    rw [hmade] at h
    obtain ⟨hfound, rfl⟩ := Prod.mk.inj h
    have hleads : f.leadsToFolder path = true := by
      split_ifs at hfound with hgood
      exact (Bool.and_eq_true_iff.mp hgood).2
    rw [leadsToFolder] at hleads
    cases hwalk : f.walk [] path with
    | ok place => exact ⟨place, rfl⟩
    | error problem =>
      rw [hwalk] at hleads
      exact nomatch hleads

theorem walk_of_ensureAfter {above : Folders → Except PathProblem Unit × Folders}
    {path : List String} {f g : Folders} (h : ensureAfter above path f = (.ok (), g)) :
    ∃ place, g.walk [] path = .ok place := by
  rw [ensureAfter] at h
  split at h
  · split at h
    · exact walk_of_ensureFolder h
    · rename_i hfailed
      rw [h] at hfailed
      exact absurd rfl (hfailed _)
  · exact walk_of_ensureFolder h

theorem walk_dots {f : Folders} {path : List String} (h : ∀ c ∈ path, c = ".") :
    f.walk [] path = .ok [] := by
  induction path with
  | nil => rfl
  | cons c path ih =>
    obtain rfl : c = "." := h c List.mem_cons_self
    exact walk_cons_eq_ok_iff.mpr
      ⟨rfl, [], .stay, ih fun d hd => h d (List.mem_cons_of_mem _ hd)⟩

/-- A path leads to its folder once that is made. -/
theorem walk_of_makePath {f g : Folders} {path : String} (h : f.makePath path = (.ok (), g)) :
    ∃ place, g.walk [] (steps path) = .ok place := by
  rw [makePath] at h
  split_ifs at h with hnul hlong hdots
  · exact nomatch h
  · exact nomatch h
  · refine ⟨[], walk_dots fun c hc => ?_⟩
    rw [List.isEmpty_iff, components, List.filter_eq_nil_iff] at hdots
    simpa using hdots c hc
  · exact walk_of_ensureAfter h

end JobBoard.Host.Folders
