import BundleLink.Proofs.FileSystem.Growth
import BundleLink.Proofs.FileSystem.Naming

/-!
Paths that lead through symbolic links. What the names at the end of a path lead to is told by the
directory that the names before them lead to (`exists_walk_append`), so a path that ends in a name
leads to the entry of that name in one directory (`Around`), unless a link stands there. When files
are made or changed and links stay (`Filled`), a path leads where it led (`resolve_filled`), files
can be written where they could (`writeTarget_filled`) and what was not written is read as before.
-/

set_option autoImplicit false

namespace BundleLink.FileSystem

open BundleLink.Text

/-! ### The directory around an entry -/

variable {fs : FileSystem}

/-- A place follows names from a directory only. -/
theorem lookup?_of_walkWith_cons {jump : Address → List Bytes → Except FileProblem Place}
    {loc : Address} {name : Bytes} {names : List Bytes} {place : Place}
    (hok : walkWith fs jump loc (name :: names) = .ok place) :
    fs.lookup? loc = some .directory := by
  unfold walkWith at hok
  cases hl : fs.lookup? loc with
  | none => simp [hl] at hok
  | some entry =>
    cases entry with
    | file content => simp [hl] at hok
    | link target => simp [hl] at hok
    | directory => rfl

/-- The first names of a path lead to a directory if any follow that lead somewhere, and those that
follow are followed from there. -/
theorem exists_walkWith_append {links : Nat}
    {jump : Address → List Bytes → Except FileProblem Place}
    (hwalk : ∀ loc names, walk fs links loc names = walkWith fs jump loc names)
    {rear : List Bytes} (hrear : rear ≠ [])
    (hjump : ∀ loc front place, jump loc (front ++ rear) = .ok place →
      ∃ links' around, fs.lookup? around = some .directory ∧
        ∀ rest, jump loc (front ++ rest) = walk fs links' around rest)
    {front : List Bytes} {loc : Address} {place : Place}
    (hok : walkWith fs jump loc (front ++ rear) = .ok place) :
    ∃ links' around, fs.lookup? around = some .directory ∧
      ∀ rest, walkWith fs jump loc (front ++ rest) = walk fs links' around rest := by
  induction front generalizing loc with
  | nil =>
    obtain ⟨name, names, rfl⟩ := List.exists_cons_of_ne_nil hrear
    exact ⟨links, loc, lookup?_of_walkWith_cons hok, fun rest ↦ by rw [hwalk, List.nil_append]⟩
  | cons name front ih =>
    have hl := lookup?_of_walkWith_cons hok
    simp only [List.cons_append, walkWith, hl] at hok ⊢
    by_cases hdot : name = [Path.dot]
    · simp only [if_pos hdot] at hok ⊢
      exact ih hok
    by_cases hup : name = [Path.dot, Path.dot]
    · simp only [if_neg hdot, if_pos hup] at hok ⊢
      exact ih hok
    by_cases hlong : maxName < name.length
    · simp [hdot, hup, hlong] at hok
    simp only [if_neg hdot, if_neg hup, if_neg hlong] at hok ⊢
    cases hnext : fs.lookup? (loc ++ [name]) with
    | none => simp [hnext, hrear] at hok
    | some entry =>
      cases entry with
      | file content =>
        simp only [hnext] at hok
        exact ih hok
      | directory =>
        simp only [hnext] at hok
        exact ih hok
      | link target =>
        simp only [hnext, ← List.append_assoc] at hok ⊢
        exact hjump _ _ place hok

theorem exists_walk_append {rear : List Bytes} (hrear : rear ≠ []) {links : Nat}
    {front : List Bytes} {loc : Address} {place : Place}
    (hok : walk fs links loc (front ++ rear) = .ok place) :
    ∃ links' around, fs.lookup? around = some .directory ∧
      ∀ rest, walk fs links loc (front ++ rest) = walk fs links' around rest := by
  induction links generalizing front loc place with
  | zero =>
    have hwalk (loc : Address) (names : List Bytes) :
        walk fs 0 loc names = walkWith fs (fun _ _ ↦ .error .tooManyLinks) loc names := rfl
    exact exists_walkWith_append hwalk hrear (fun _ _ _ hno ↦ nomatch hno) hok
  | succ links ih =>
    have hwalk (loc : Address) (names : List Bytes) :
        walk fs (links + 1) loc names = walkWith fs (walk fs links) loc names := rfl
    exact exists_walkWith_append hwalk hrear (fun _ _ _ hjump ↦ ih hjump) hok

/-- The directory in which a path looks for its last name. Links that lead there are followed. -/
structure Around (fs : FileSystem) (p : Path) (around : Address) : Prop where
  directory : fs.lookup? around = some .directory
  leads : ∃ links, ∀ rest,
    walk fs maxLinks (fs.start p) ((steps p).dropLast ++ rest) = walk fs links around rest

theorem walk_nil (links : Nat) (loc : Address) :
    walk fs links loc [] =
      match fs.lookup? loc with
      | some (.file content) => .ok (.file loc content)
      | some .directory => .ok (.directory loc)
      | _ => .error .notFound := by
  cases links <;> rfl

/-- The address of the entry that a path names: links on the way to its directory are followed, one
in its own place is not. -/
def entry? (fs : FileSystem) (p : Path) : Option Address :=
  match (steps p).getLast?, walk fs maxLinks (fs.start p) (steps p).dropLast with
  | some name, .ok (.directory around) => some (around ++ [name])
  | _, _ => none

theorem Around.entry? {p : Path} {around : Address} (ha : Around fs p around) {front : List Bytes}
    {name : Bytes} (hsteps : steps p = front ++ [name]) : fs.entry? p = some (around ++ [name]) := by
  obtain ⟨links, hleads⟩ := ha.leads
  have hwalk := hleads []
  rw [List.append_nil, walk_nil, ha.directory] at hwalk
  rw [FileSystem.entry?, hwalk, hsteps, List.getLast?_concat]

theorem resolve_eq_walk (fs : FileSystem) (p : Path) : fs.resolve p =
    if p.bytes.contains 0 then .error .nulByte
    else if p.bytes = [] then .error .notFound
    else if maxPath < p.bytes.length then .error .nameTooLong
    else walk fs maxLinks (fs.start p) (steps p) := rfl

/-- What a path leads to that a system takes. -/
theorem resolve_of_ok {p : Path} {place : Place} (hok : fs.resolve p = .ok place) :
    p.bytes.contains 0 = false ∧ p.bytes ≠ [] ∧ p.bytes.length ≤ maxPath ∧
      walk fs maxLinks (fs.start p) (steps p) = .ok place := by
  rw [resolve_eq_walk] at hok
  split_ifs at hok with hnul hempty hlong
  exact ⟨by simpa using hnul, hempty, Nat.le_of_not_lt hlong, hok⟩

theorem around_of_resolve {p : Path} {place : Place} (hok : fs.resolve p = .ok place)
    {front : List Bytes} {name : Bytes} (hsteps : steps p = front ++ [name]) :
    ∃ around, Around fs p around := by
  have hwalk := (resolve_of_ok hok).2.2.2
  rw [hsteps] at hwalk
  obtain ⟨links, around, hdirectory, hleads⟩ := exists_walk_append (by simp) hwalk
  exact ⟨around, hdirectory, links, by rwa [hsteps, List.dropLast_concat]⟩

/-- A path that ends in a name leads to the entry of that name, if no link stands there. -/
theorem Around.loc_eq {p : Path} {around : Address} (ha : Around fs p around) {name : Bytes}
    (hp : Named p name) (hlink : ∀ target, fs.lookup? (around ++ [name]) ≠ some (.link target))
    {loc : Address} (hloc : fs.writeTarget p = .ok loc) : loc = around ++ [name] := by
  obtain ⟨front, -, hsteps⟩ := hp.steps_eq
  obtain ⟨_, -, -, -, hdot, hup⟩ := hp
  obtain ⟨links, hleads⟩ := ha.leads
  have hresolve (place : Place) (hok : fs.resolve p = .ok place) :
      walk fs links around [name] = .ok place := by
    have hwalk := (resolve_of_ok hok).2.2.2
    rw [hsteps] at hwalk hleads
    rw [← hleads, List.dropLast_concat, hwalk]
  have hplace (place : Place) (hok : walk fs links around [name] = .ok place) (l : Address)
      (hl : (∃ content, place = .file l content) ∨ place = .vacant l) : l = around ++ [name] := by
    have hstep : ∃ jump, walk fs links = walkWith fs jump := by
      cases links with
      | zero => exact ⟨_, rfl⟩
      | succ links => exact ⟨_, rfl⟩
    obtain ⟨jump, hjump⟩ := hstep
    rw [hjump, walkWith, ha.directory] at hok
    simp only [hdot, hup, if_false] at hok
    by_cases hlong : maxName < name.length
    · simp [hlong] at hok
    rw [if_neg hlong] at hok
    cases hentry : fs.lookup? (around ++ [name]) with
    | none =>
      simp only [hentry, List.isEmpty_nil, if_true, Except.ok.injEq] at hok
      rcases hl with ⟨content, rfl⟩ | rfl
      · cases hok
      · cases hok
        rfl
    | some entry =>
      cases entry with
      | link target => exact absurd hentry (hlink target)
      | directory =>
        simp only [hentry, walkWith, Except.ok.injEq] at hok
        rcases hl with ⟨content, rfl⟩ | rfl <;> cases hok
      | file content =>
        simp only [hentry, walkWith, Except.ok.injEq] at hok
        rcases hl with ⟨content', rfl⟩ | rfl
        · cases hok
          rfl
        · cases hok
  rcases (resolve_of_writeTarget hloc).2 with ⟨content, hok⟩ | hok
  · exact hplace _ (hresolve _ hok) loc (.inl ⟨content, rfl⟩)
  · exact hplace _ (hresolve _ hok) loc (.inr rfl)

/-- What is appended to a name is looked for in the same directory. -/
theorem Around.append {p : Path} {around : Address} (ha : Around fs p around) {name : Bytes}
    (hp : Named p name) {s : String} (hname : IsName (name ++ bytesOf s)) :
    Around fs (p.append s) around := by
  refine ⟨ha.directory, ?_⟩
  rw [hp.start_append, hp.steps_append, steps_of_isName hname, List.dropLast_concat]
  exact ha.leads

/-- What is appended to a path is followed from the directory of its last name. -/
theorem Around.resolve_append {p : Path} {around : Address} (ha : Around fs p around) {name : Bytes}
    (hp : Named p name) : ∃ links, ∀ s : String, fs.resolve (p.append s) =
      if (p.append s).bytes.contains 0 then .error .nulByte
      else if maxPath < (p.append s).bytes.length then .error .nameTooLong
      else walk fs links around (steps ⟨name ++ bytesOf s⟩) := by
  obtain ⟨links, hleads⟩ := ha.leads
  refine ⟨links, fun s ↦ ?_⟩
  have hne : (p.append s).bytes ≠ [] := by simp [Path.append, hp.bytes_ne_nil]
  rw [resolve_eq_walk, if_neg hne, hp.start_append, hp.steps_append, hleads]

/-- A path that can be written to ends in a name. -/
theorem named_of_writeTarget (h : fs.IsSound) {p : Path} {loc : Address}
    (hloc : fs.writeTarget p = .ok loc) : ∃ name, Named p name := by
  obtain ⟨hslash, hplace⟩ := resolve_of_writeTarget hloc
  obtain ⟨place, hok, hnot⟩ : ∃ place, fs.resolve p = .ok place ∧ ∀ l, place ≠ .directory l := by
    rcases hplace with ⟨content, hok⟩ | hok
    · exact ⟨_, hok, by simp⟩
    · exact ⟨_, hok, by simp⟩
  obtain ⟨front, last, hparts, hlast⟩ := exists_partsBetween Path.slash p.bytes
  have hempty : last ≠ [] := by
    rintro rfl
    rcases getLast?_of_partsBetween hparts with hnil | hlast
    · exact (resolve_of_ok hok).2.1 hnil
    · simp [endsInSlash, hlast] at hslash
  have hsteps : steps p = front.filter (· ≠ []) ++ [last] := by
    rw [steps, hparts, List.filter_append]
    simp [hempty]
  obtain ⟨around, haround⟩ := around_of_resolve hok hsteps
  obtain ⟨links, hleads⟩ := haround.leads
  have hwalk := (resolve_of_ok hok).2.2.2
  rw [hsteps, List.dropLast_concat] at hleads
  rw [hsteps, hleads] at hwalk
  have hparent := h.parent _ _ haround.directory
  refine ⟨last, front, hparts, hempty, hlast, fun hdot ↦ ?_, fun hup ↦ ?_⟩
  · cases links <;> simp [walk, walkWith, haround.directory, hdot] at hwalk
    all_goals exact hnot _ hwalk.symm
  · cases links <;> simp [walk, walkWith, haround.directory, hup, hparent] at hwalk
    all_goals exact hnot _ hwalk.symm

theorem around_of_isFile (h : fs.IsSound) {p : Path} (hp : fs.isFile p) :
    ∃ name around, Named p name ∧ Around fs p around := by
  obtain ⟨hslash, loc, content, hok⟩ := (isFile_iff fs p).mp hp
  have htarget : fs.writeTarget p = .ok loc := by simp [writeTarget, hok, hslash]
  obtain ⟨name, hnamed⟩ := named_of_writeTarget h htarget
  obtain ⟨front, -, hsteps⟩ := hnamed.steps_eq
  obtain ⟨around, haround⟩ := around_of_resolve hok hsteps
  exact ⟨name, around, hnamed, haround⟩

/-! ### Without links -/

theorem walk_eq_of_isTree (h : fs.IsTree) (links links' : Nat) (loc : Address)
    (names : List Bytes) : walk fs links loc names = walk fs links' loc names := by
  cases links <;> cases links' <;> exact walkWith_eq h _ _ names loc

theorem Around.eq_of_isTree (h : fs.IsTree) {p : Path} {around : Address}
    (ha : Around fs p around) {name : Bytes} (hp : Named p name) :
    around = (fs.address p).dropLast := by
  obtain ⟨links, hleads⟩ := ha.leads
  have hwalk := hleads []
  rw [List.append_nil, walk_nil, ha.directory, walk_eq_of_isTree h maxLinks 0] at hwalk
  rw [← hp.foldl_dropLast_steps]
  exact (walkWith_ok h _ hwalk).1

/-- Paths of one file lead to one place with the same text appended. -/
theorem resolve_append_congr (h : fs.IsTree) {p q : Path} (hp : fs.isFile p) (hq : fs.isFile q)
    (haddress : fs.address p = fs.address q) {s : String} {place : Place}
    (hok : fs.resolve (p.append s) = .ok place) (hlength : (q.append s).bytes.length ≤ maxPath) :
    fs.resolve (q.append s) = .ok place := by
  obtain ⟨name, around, hnamed, haround⟩ := around_of_isFile h.isSound hp
  obtain ⟨name', around', hnamed', haround'⟩ := around_of_isFile h.isSound hq
  obtain rfl : name = name' := hnamed.eq_of_address_eq hnamed' haddress
  obtain rfl : around = around' := by
    rw [haround.eq_of_isTree h hnamed, haround'.eq_of_isTree h hnamed', haddress]
  have hnul : (q.append s).bytes.contains 0 = false := by
    obtain ⟨-, loc, content, hplace⟩ := (isFile_iff fs q).mp hq
    have hboth := (resolve_of_ok hok).1
    have honly := (resolve_of_ok hplace).1
    simp only [Path.append, List.contains_eq_mem, List.mem_append, decide_eq_false_iff_not,
      not_or] at hboth honly ⊢
    exact ⟨honly, hboth.2⟩
  obtain ⟨links, happend⟩ := haround.resolve_append hnamed
  obtain ⟨links', happend'⟩ := haround'.resolve_append hnamed'
  rw [happend] at hok
  split_ifs at hok
  rw [happend', hnul, if_neg Bool.false_ne_true, if_neg (Nat.not_lt.mpr hlength),
    walk_eq_of_isTree h links' links, hok]

theorem endsInSlash_append_congr {p q : Path} (hpq : endsInSlash p = endsInSlash q) (s : String) :
    endsInSlash (p.append s) = endsInSlash (q.append s) := by
  rcases List.eq_nil_or_concat (bytesOf s) with hnil | ⟨bs, b, hlast⟩
  · simpa [Path.append, hnil, endsInSlash] using hpq
  · simp [Path.append, hlast, endsInSlash]

theorem writeTarget_append_congr (h : fs.IsTree) {p q : Path} (hp : fs.isFile p)
    (hq : fs.isFile q) (haddress : fs.address p = fs.address q) {s : String} {loc : Address}
    (hloc : fs.writeTarget (p.append s) = .ok loc) (hlength : (q.append s).bytes.length ≤ maxPath) :
    fs.writeTarget (q.append s) = .ok loc := by
  have hpq : endsInSlash q = endsInSlash p := by
    rw [((isFile_iff fs q).mp hq).1, ((isFile_iff fs p).mp hp).1]
  obtain ⟨hslash, hplace⟩ := resolve_of_writeTarget hloc
  rw [writeTarget]
  rcases hplace with ⟨content, hok⟩ | hok
  · simp [resolve_append_congr h hp hq haddress hok hlength, endsInSlash_append_congr hpq, hslash]
  · simp [resolve_append_congr h hp hq haddress hok hlength, endsInSlash_append_congr hpq, hslash]

/-! ### When files are made or changed -/

/-- Nothing but files differs, and none of them stands where a directory or a link stood. -/
structure Filled (fs fs' : FileSystem) : Prop extends Grown fs fs' where
  link : ∀ loc target, fs.lookup? loc = some (.link target) →
    fs'.lookup? loc = some (.link target)

theorem Filled.refl (fs : FileSystem) : Filled fs fs :=
  ⟨.refl fs, fun _ _ hlink ↦ hlink⟩

/-- Where the same path leads in two file systems, the second of which has more files. -/
inductive Carried (fs fs' : FileSystem) :
    Except FileProblem Place → Except FileProblem Place → Prop
  | directory (loc : Address) : Carried fs fs' (.ok (.directory loc)) (.ok (.directory loc))
  | file (loc : Address) (content content' : Bytes) : fs.lookup? loc = some (.file content) →
      fs'.lookup? loc = some (.file content') →
      Carried fs fs' (.ok (.file loc content)) (.ok (.file loc content'))
  | vacant (loc : Address) : fs.lookup? loc = none → fs'.lookup? loc = none →
      Carried fs fs' (.ok (.vacant loc)) (.ok (.vacant loc))
  | made (loc : Address) (content : Bytes) : fs.lookup? loc = none →
      fs'.lookup? loc = some (.file content) →
      Carried fs fs' (.ok (.vacant loc)) (.ok (.file loc content))
  | failed (problem problem' : FileProblem) : Carried fs fs' (.error problem) (.error problem')

section

variable {fs' : FileSystem} (h : fs.IsSound) (g : Filled fs fs')

include h g

omit h in
theorem walkWith_nil_filled {jump jump' : Address → List Bytes → Except FileProblem Place}
    {loc : Address} (hloc : (fs.lookup? loc).isSome) :
    Carried fs fs' (walkWith fs jump loc []) (walkWith fs' jump' loc []) := by
  rw [walkWith, walkWith]
  cases hl : fs.lookup? loc with
  | none => simp [hl] at hloc
  | some entry =>
    cases entry with
    | link target => simpa [g.link loc target hl] using Carried.failed _ _
    | directory => simpa [g.lookup?_directory hl] using Carried.directory loc
    | file content =>
      obtain ⟨content', hl'⟩ := g.lookup?_file hl
      simpa [hl'] using Carried.file loc content content' hl hl'

/-- Along a path. The induction is on its names; `hjump` is the same after a link. -/
theorem walkWith_filled {jump jump' : Address → List Bytes → Except FileProblem Place}
    (hjump : ∀ loc names, fs.lookup? loc = some .directory →
      Carried fs fs' (jump loc names) (jump' loc names))
    (names : List Bytes) {loc : Address} (hloc : names = [] → (fs.lookup? loc).isSome) :
    Carried fs fs' (walkWith fs jump loc names) (walkWith fs' jump' loc names) := by
  induction names generalizing loc with
  | nil => exact walkWith_nil_filled g (hloc rfl)
  | cons name names ih =>
    rw [walkWith, walkWith]
    cases hl : fs.lookup? loc with
    | none =>
      rcases g.lookup?_none hl with hl' | ⟨content, hl'⟩
      · simpa [hl'] using Carried.failed _ _
      · simpa [hl'] using Carried.failed _ _
    | some entry =>
      cases entry with
      | link target => simpa [g.link loc target hl] using Carried.failed _ _
      | file content =>
        obtain ⟨content', hl'⟩ := g.lookup?_file hl
        simpa [hl'] using Carried.failed _ _
      | directory =>
        simp only [g.lookup?_directory hl]
        by_cases hdot : name = [Path.dot]
        · simpa only [if_pos hdot] using ih fun _ ↦ by simp [hl]
        by_cases hup : name = [Path.dot, Path.dot]
        · simpa only [if_neg hdot, if_pos hup] using ih fun _ ↦ by simp [h.parent loc _ hl]
        by_cases hlong : maxName < name.length
        · simpa only [if_neg hdot, if_neg hup, if_pos hlong] using Carried.failed _ _
        simp only [if_neg hdot, if_neg hup, if_neg hlong]
        cases hnext : fs.lookup? (loc ++ [name]) with
        | none =>
          rcases g.lookup?_none hnext with hnext' | ⟨content, hnext'⟩
          · by_cases hlast : names.isEmpty
            · simpa [hnext', hlast] using Carried.vacant _ hnext hnext'
            · simpa [hnext', hlast] using Carried.failed _ _
          · cases names with
            | nil => simpa [hnext', walkWith] using Carried.made _ content hnext hnext'
            | cons second rest => simpa [hnext', walkWith] using Carried.failed _ _
        | some entry =>
          have hsome : names = [] → (fs.lookup? (loc ++ [name])).isSome := fun _ ↦ by simp [hnext]
          cases entry with
          | link target =>
            simp only [g.link _ target hnext]
            refine hjump _ _ ?_
            split_ifs
            · exact lookup?_nil fs
            · exact hl
          | directory =>
            simp only [g.lookup?_directory hnext]
            exact ih hsome
          | file content =>
            obtain ⟨content', hnext'⟩ := g.lookup?_file hnext
            simp only [hnext']
            exact ih hsome

theorem walk_filled (links : Nat) (names : List Bytes) {loc : Address}
    (hloc : names = [] → (fs.lookup? loc).isSome) :
    Carried fs fs' (walk fs links loc names) (walk fs' links loc names) := by
  induction links generalizing names loc with
  | zero => exact walkWith_filled h g (fun _ _ _ ↦ .failed _ _) names hloc
  | succ links ih =>
    exact walkWith_filled h g (fun _ names hl ↦ ih names fun _ ↦ by simp [hl]) names hloc

/-- A path leads where it led, unless it led to nothing. -/
theorem resolve_filled (p : Path) : Carried fs fs' (fs.resolve p) (fs'.resolve p) := by
  have hstart : fs'.start p = fs.start p := by rw [start, start, g.current]
  rw [resolve_eq_walk, resolve_eq_walk, hstart]
  split_ifs with hnul hempty hlong
  · exact .failed _ _
  · exact .failed _ _
  · exact .failed _ _
  · refine walk_filled h g maxLinks (steps p) fun hsteps ↦ ?_
    simp [start_eq_nil_of_steps_eq_nil fs hempty hsteps]

/-- Files can be written where they could be written. -/
theorem writeTarget_filled {p : Path} {loc : Address} :
    fs'.writeTarget p = .ok loc ↔ fs.writeTarget p = .ok loc := by
  have hcarried := resolve_filled h g p
  unfold writeTarget
  generalize fs.resolve p = before at hcarried ⊢
  generalize fs'.resolve p = after at hcarried ⊢
  cases hcarried with
  | made loc content hloc hloc' => by_cases hslash : endsInSlash p <;> simp [hslash]
  | _ => simp

/-- What has not been written is read as before. -/
theorem readBytes_filled {p : Path} {content : Bytes} (hread : fs'.readBytes p = .ok content)
    (hkept : ∀ loc, fs.writeTarget p = .ok loc → fs'.lookup? loc = fs.lookup? loc) :
    fs.readBytes p = .ok content := by
  have hcarried := resolve_filled h g p
  unfold writeTarget at hkept
  unfold readBytes at hread ⊢
  generalize fs.resolve p = before at hcarried hkept ⊢
  generalize fs'.resolve p = after at hcarried hread
  by_cases hslash : endsInSlash p
  · cases hcarried <;> simp [hslash] at hread
  · cases hcarried with
    | directory loc => simp at hread
    | failed problem problem' => simp at hread
    | vacant loc hloc hloc' => simp at hread
    | file loc content₀ content' hloc hloc' =>
      have hsame := hkept loc (by simp [hslash])
      rw [hloc, hloc'] at hsame
      cases hsame
      exact hread
    | made loc content₀ hloc hloc' =>
      have hsame := hkept loc (by simp [hslash])
      rw [hloc, hloc'] at hsame
      cases hsame

theorem readText_filled {p : Path} {text : List Char} (hread : fs'.readText p = .ok text)
    (hkept : ∀ loc, fs.writeTarget p = .ok loc → fs'.lookup? loc = fs.lookup? loc) :
    fs.readText p = .ok text := by
  rw [readText] at hread ⊢
  cases hbytes : fs'.readBytes p with
  | error problem => simp [hbytes] at hread
  | ok content =>
    rw [readBytes_filled h g hbytes hkept]
    simpa [hbytes] using hread

/-- A file that has not been written is read as before. -/
theorem readBytes_filled_of_ok {p : Path} {content : Bytes} (hread : fs.readBytes p = .ok content)
    (hkept : ∀ loc, fs.writeTarget p = .ok loc → fs'.lookup? loc = fs.lookup? loc) :
    fs'.readBytes p = .ok content := by
  have hcarried := resolve_filled h g p
  unfold writeTarget at hkept
  unfold readBytes at hread ⊢
  generalize fs.resolve p = before at hcarried hkept hread
  generalize fs'.resolve p = after at hcarried ⊢
  by_cases hslash : endsInSlash p
  · cases hcarried <;> simp [hslash] at hread
  · cases hcarried with
    | file loc content₀ content' hloc hloc' =>
      have hsame := hkept loc (by simp [hslash])
      rw [hloc, hloc'] at hsame
      cases hsame
      exact hread
    | _ => simp at hread

/-- A path that could be written to leads to what was written. -/
theorem isFile_filled {p : Path} {loc : Address} (hloc : fs.writeTarget p = .ok loc)
    {content : Bytes} (hfile : fs'.lookup? loc = some (.file content)) : fs'.isFile p := by
  have hcarried := resolve_filled h g p
  obtain ⟨hslash, hplace⟩ := resolve_of_writeTarget hloc
  rw [isFile_iff]
  refine ⟨hslash, loc, ?_⟩
  generalize fs'.resolve p = after at hcarried ⊢
  rcases hplace with ⟨content₀, hok⟩ | hok
  · rw [hok] at hcarried
    cases hcarried with
    | file _ _ content' _ _ => exact ⟨content', rfl⟩
  · rw [hok] at hcarried
    cases hcarried with
    | made _ content' _ _ => exact ⟨content', rfl⟩
    | vacant _ _ hnone => simp [hnone] at hfile

/-- What was written to a path is read from it. -/
theorem readBytes_filled_of_writeTarget {p : Path} {loc : Address}
    (hloc : fs.writeTarget p = .ok loc) {content : Bytes}
    (hfile : fs'.lookup? loc = some (.file content)) : fs'.readBytes p = .ok content := by
  have hcarried := resolve_filled h g p
  obtain ⟨hslash, hplace⟩ := resolve_of_writeTarget hloc
  rw [readBytes]
  generalize fs'.resolve p = after at hcarried ⊢
  rcases hplace with ⟨content₀, hok⟩ | hok
  · rw [hok] at hcarried
    cases hcarried with
    | file _ _ content' _ hafter =>
      rw [hfile] at hafter
      cases hafter
      simp [hslash]
  · rw [hok] at hcarried
    cases hcarried with
    | made _ content' _ hafter =>
      rw [hfile] at hafter
      cases hafter
      simp [hslash]
    | vacant _ _ hnone => simp [hnone] at hfile

omit g in
/-- Where a file can be written stands a file or nothing. -/
theorem lookup?_of_writeTarget {p : Path} {loc : Address} (hloc : fs.writeTarget p = .ok loc) :
    fs.lookup? loc = none ∨ ∃ content, fs.lookup? loc = some (.file content) := by
  have hcarried := resolve_filled h (.refl fs) p
  rcases (resolve_of_writeTarget hloc).2 with ⟨content, hok⟩ | hok
  · rw [hok] at hcarried
    cases hcarried with
    | file _ _ _ hfile _ => exact .inr ⟨content, hfile⟩
  · rw [hok] at hcarried
    cases hcarried with
    | vacant _ hnone _ => exact .inl hnone

omit g in
theorem ne_nil_of_writeTarget {p : Path} {loc : Address} (hloc : fs.writeTarget p = .ok loc) :
    loc ≠ [] := by
  rintro rfl
  rcases lookup?_of_writeTarget h hloc with hnone | ⟨content, hfile⟩
  · simp at hnone
  · simp at hfile

/-- One more file. -/
theorem Filled.put {p : Path} {loc : Address} (hloc : fs.writeTarget p = .ok loc)
    (content : Bytes) : Filled fs (fs'.put loc (.file content)) := by
  have hne := ne_nil_of_writeTarget h hloc
  have hnot (entry : Entry) (hentry : ∀ content, entry ≠ .file content) :
      fs.lookup? loc ≠ some entry := by
    rcases lookup?_of_writeTarget h hloc with hnone | ⟨content, hfile⟩
    · simp [hnone]
    · rw [hfile]
      exact fun heq ↦ hentry content (Option.some.inj heq).symm
  refine ⟨⟨g.current, fun l ↦ ?_⟩, fun l target hl ↦ ?_⟩
  · rw [lookup?_put fs' hne]
    by_cases hl : l = loc
    · rw [if_pos hl, hl]
      exact .inr ⟨hnot .directory (by simp), content, rfl⟩
    · rw [if_neg hl]
      exact g.entry l
  · have hl' : l ≠ loc := fun heq ↦ hnot (.link target) (by simp) (heq ▸ hl)
    rw [lookup?_put fs' hne, if_neg hl', g.link l target hl]

end

end BundleLink.FileSystem
