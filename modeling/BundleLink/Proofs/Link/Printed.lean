import BundleLink.Proofs.Link.Visits
import BundleLink.Proofs.Script.StringText

/-!
What is printed for a specifier that was rewritten. The text of a module only grows while its pieces
are laid out, so what is printed for the source of an item stands right after what is printed for
the pieces before it (`exists_print_eq`). A rewritten source has no text but that of its value, and
this is read back as the old specifier with the suffix (`readsString_of_linkSource`). Names do not
fare so well. They are printed by what they stand for, even where that is a keyword, and then what
is printed is no module (`not_parsed_escapedText`).
-/

set_option autoImplicit false

namespace BundleLink

open BundleLink.Script

namespace Script

/-! ### Texts grow while they are laid out -/

namespace Layout

variable (l : Layout)

theorem toList_pushn (s : String) (c : Char) (n : Nat) :
    (s.pushn c n).toList = s.toList ++ List.replicate n c := by
  rw [String.pushn_eq_repeat_push]
  induction n with
  | zero => simp [Nat.repeat]
  | succ n ih => rw [Nat.repeat, String.toList_push, ih, List.replicate_succ', List.append_assoc]

/-- A text is written after what is there, with blanks between if it begins a line. -/
theorem exists_write_eq {s : String} (hs : s ≠ "") : ∃ n,
    (l.write s).out.toList = l.out.toList ++ List.replicate n ' ' ++ s.toList := by
  unfold write
  rw [if_neg (by simpa using hs)]
  split_ifs
  · exact ⟨4 * l.depth, by rw [String.toList_append, toList_pushn]⟩
  · exact ⟨0, by simp⟩

theorem prefix_write (s : String) : l.out.toList <+: (l.write s).out.toList := by
  by_cases hs : s = ""
  · subst hs
    exact List.prefix_rfl
  · obtain ⟨n, hn⟩ := l.exists_write_eq hs
    rw [hn, List.append_assoc]
    exact List.prefix_append _ _

theorem prefix_endLine : l.out.toList <+: l.endLine.out.toList := by
  unfold endLine
  split_ifs
  · exact List.prefix_rfl
  · rw [String.toList_push]
    exact List.prefix_append _ _

theorem prefix_writeComment (spaced : Bool) (c : Comment) :
    l.out.toList <+: (writeComment spaced l c).out.toList := by
  unfold writeComment
  have hspaced : l.out.toList <+: (if spaced then l.write " " else l).out.toList := by
    split
    · exact l.prefix_write " "
    · exact List.prefix_rfl
  refine hspaced.trans ?_
  cases c.kind
  · exact (prefix_write _ _).trans (prefix_endLine _)
  · exact (prefix_write _ _).trans (prefix_write _ _)

theorem prefix_writeComments (side : CommentSide) (pos : Nat) (spaced : Bool) :
    l.out.toList <+: (l.writeComments side pos spaced).out.toList := by
  have hfold (cs : List Comment) (l : Layout) :
      l.out.toList <+: (cs.foldl (writeComment spaced) l).out.toList := by
    induction cs generalizing l with
    | nil => exact List.prefix_rfl
    | cons c cs ih => exact (l.prefix_writeComment spaced c).trans (ih _)
  unfold writeComments
  split
  · exact List.prefix_rfl
  · exact hfold _ { l with comments := l.comments.without side pos }

theorem prefix_add (p : Piece) : l.out.toList <+: (l.add p).out.toList := by
  cases p with
  | text s => exact l.prefix_write s
  | line => exact l.prefix_endLine
  | indent => exact List.prefix_rfl
  | dedent => exact List.prefix_rfl
  | leading pos => exact l.prefix_writeComments .leading pos false
  | trailing pos spaced => exact l.prefix_writeComments .trailing pos spaced
  | lineIfLed pos =>
    simp only [add]
    split_ifs
    · exact List.prefix_rfl
    · exact l.prefix_endLine
  | ifBroken pos yes no => exact l.prefix_write _

theorem prefix_foldl_add (pieces : List Piece) :
    l.out.toList <+: (pieces.foldl add l).out.toList := by
  induction pieces generalizing l with
  | nil => exact List.prefix_rfl
  | cons p pieces ih => exact (l.prefix_add p).trans (ih _)

end Layout

/-- A text among the pieces is laid out after the pieces before it. -/
theorem exists_layOut_eq (comments : Comments) (front : List Piece) {s : String} (hs : s ≠ "")
    (rear : List Piece) : ∃ n tail, (layOut comments (front ++ .text s :: rear)).toList =
      (layOut comments front).toList ++ List.replicate n ' ' ++ s.toList ++ tail := by
  obtain ⟨n, hn⟩ := (front.foldl Layout.add (.empty comments)).exists_write_eq hs
  obtain ⟨tail, htail⟩ :=
    ((front.foldl Layout.add (.empty comments)).add (.text s)).prefix_foldl_add rear
  refine ⟨n, tail, ?_⟩
  rw [layOut, List.foldl_append, List.foldl_cons, ← htail, Layout.add, hn]
  rfl

/-! ### Where a source is printed -/

/-- The pieces of an item before the text of its source. -/
def ModuleItem.beforeSource : ModuleItem → List Piece
  | importDecl d =>
    [.leading d.span.lo, .text "import "] ++
      (if d.phase = .evaluation then [] else [.text (d.phase.text ++ " ")]) ++
      importClause d.comma d.specifiers ++ [.leading d.source.span.lo]
  | exportNamed d =>
    [.leading d.span.lo, .text "export "] ++ exportClause d.comma d.specifiers ++
      [.text " from "] ++ (d.source.map fun s ↦ .leading s.span.lo).toList
  | exportAll d => [.leading d.span.lo, .text "export * from ", .leading d.source.span.lo]
  | _ => []

/-- The pieces of a module before the source of `i`, which comes after the items `before`. The last
piece of a module is for the comments at its end. -/
def Module.beforeSource (m : Module) (before : List ModuleItem) (i : ModuleItem) : List Piece :=
  { m with items := before }.pieces.dropLast ++ i.beforeSource

theorem ModuleItem.exists_pieces_eq {i : ModuleItem} {s : StringLit} (hi : i.source? = some s) :
    ∃ rear, i.pieces = i.beforeSource ++ .text s.text :: rear := by
  cases i with
  | importDecl d =>
    obtain rfl : d.source = s := Option.some.inj hi
    exact ⟨_, by simp [pieces, bare, beforeSource, ImportDecl.pieces, StringLit.pieces]; rfl⟩
  | exportNamed d =>
    have hsource : d.source = some s := hi
    exact ⟨_, by
      simp [pieces, bare, beforeSource, ExportNamed.pieces, StringLit.pieces, hsource]; rfl⟩
  | exportAll d =>
    obtain rfl : d.source = s := Option.some.inj hi
    exact ⟨_, by simp [pieces, bare, beforeSource, ExportAll.pieces, StringLit.pieces]; rfl⟩
  | _ => cases hi

theorem Module.exists_pieces_eq {m : Module} {before after : List ModuleItem} {i : ModuleItem}
    (hitems : m.items = before ++ i :: after) {s : StringLit} (hi : i.source? = some s) :
    ∃ rear, m.pieces = m.beforeSource before i ++ .text s.text :: rear := by
  obtain ⟨rear, hrear⟩ := ModuleItem.exists_pieces_eq hi
  refine ⟨rear ++ after.flatMap (·.pieces) ++ [.trailing m.span.hi true], ?_⟩
  rw [beforeSource, pieces, pieces, List.dropLast_concat, hitems, List.flatMap_append,
    List.flatMap_cons, hrear]
  simp only [List.append_assoc, List.cons_append]

theorem StringLit.text_ne_empty {s : StringLit} (hs : s.raw = none) : s.text ≠ "" := by
  rw [text, hs]
  intro hempty
  have hlist := toList_stringText s.value
  rw [Option.getD_none] at hempty
  rw [hempty] at hlist
  simp at hlist

/-- A source without a text of its own is printed right after the pieces before it. -/
theorem Module.exists_print_eq {m : Module} {before after : List ModuleItem} {i : ModuleItem}
    (hitems : m.items = before ++ i :: after) {s : StringLit} (hi : i.source? = some s)
    (hs : s.raw = none) (comments : Comments) : ∃ n tail, (m.print comments).toList =
      (layOut comments (m.beforeSource before i)).toList ++ List.replicate n ' ' ++
        s.text.toList ++ tail := by
  obtain ⟨rear, hrear⟩ := exists_pieces_eq hitems hi
  rw [print, hrear]
  exact exists_layOut_eq comments _ (StringLit.text_ne_empty hs) rear

end Script

namespace Link

variable {source : List Char} {path : Path} {o : Options} {linked : Linked} {log : Log}

/-- What is printed in place of the specifier `old` of the item `i`, which comes after the items
`before` of a module: a literal without a text of its own, which stands in `code` after all that is
printed before it and some blanks, from where the parser takes it for `old` with the suffix. -/
structure PrintedSource (suffix : String) (m : Module) (comments : Comments) (code : String)
    (before : List ModuleItem) (i : ModuleItem) (old new : String) (s : StringLit) : Prop where
  source : (Relinker.item suffix i).1.source? = some s
  raw : s.raw = none
  value : new = old ++ suffix
  place : ∃ n tail, code.toList =
    (layOut comments ((Relinker.run ⟨suffix, 0⟩ m).1.beforeSource
      (before.map fun i ↦ (Relinker.item suffix i).1) (Relinker.item suffix i).1)).toList ++
      List.replicate n ' ' ++ s.text.toList ++ tail
  reads : Parser.ReadsString s.text (.ofString new)

theorem exists_source_of_rewritten {suffix : String} {i : ModuleItem} {old new : String}
    (hrewritten : (Relinker.item suffix i).2 = some (.specifierRewritten old new)) :
    ∃ s, i.source? = some s ∧ isRelative s.value.lossy ∧ s.value.lossy = old ∧
      new = old ++ suffix := by
  unfold Relinker.item at hrewritten
  split at hrewritten
  · cases hrewritten
  · rename_i s hs
    dsimp only at hrewritten
    split_ifs at hrewritten with hrelative
    obtain ⟨rfl, rfl⟩ : s.value.lossy = old ∧ s.value.lossy ++ suffix = new := by
      simpa using hrewritten
    exact ⟨s, hs, hrelative, rfl, rfl⟩

/-- Every specifier that is rewritten survives printing. A text that is linked without plugins is
that of a module, and the log tells of its items in order. For each item that the log tells of, the
literal in the linked text is read back as what the log tells. -/
theorem readsString_of_linkSource (hplugins : o.plugins = [])
    (hlink : linkSource source path o = (.ok linked, log)) :
    ∃ m comments, parseModule (withoutMark source) path = .ok (m, comments) ∧
      log = m.items.filterMap (fun i ↦ (Relinker.item o.suffix i).2) ∧
      ∀ before i after old new, m.items = before ++ i :: after →
        (Relinker.item o.suffix i).2 = some (.specifierRewritten old new) →
        (∃ s, i.source? = some s ∧ s.value.lossy = old) ∧
          ∃ s, PrintedSource o.suffix m (if o.preserveComments then comments else []) linked.code
            before i old new s := by
  unfold linkSource at hlink
  cases hparse : parseModule (withoutMark source) path with
  | error e => simp [hparse] at hlink
  | ok parsed =>
    obtain ⟨m, comments⟩ := parsed
    simp only [hparse, runPlugins, hplugins, List.foldl_nil, List.map_nil, List.nil_append,
      Prod.mk.injEq, Except.ok.injEq] at hlink
    obtain ⟨rfl, rfl⟩ := hlink
    refine ⟨m, comments, rfl, ?_, fun before i after old new hitems hrewritten ↦ ?_⟩
    · rw [Relinker.run, List.filterMap_map]
      rfl
    obtain ⟨s, hs, hrelative, hold, hnew⟩ := exists_source_of_rewritten hrewritten
    have hsource : (Relinker.item o.suffix i).1.source? = some (Relinker.suffixed o.suffix s) := by
      rw [Relinker.item_of_relative o.suffix hs hrelative]
      exact ModuleItem.source?_withSource hs _
    refine ⟨⟨s, hs, hold⟩, Relinker.suffixed o.suffix s, hsource, rfl, hnew, ?_, ?_⟩
    · have hitems' : (Relinker.run ⟨o.suffix, 0⟩ m).1.items =
          (before.map fun i ↦ (Relinker.item o.suffix i).1) ++
            (Relinker.item o.suffix i).1 :: after.map fun i ↦ (Relinker.item o.suffix i).1 := by
        rw [Relinker.run, hitems, List.map_map, List.map_append, List.map_cons]
        rfl
      exact Module.exists_print_eq hitems' hsource rfl _
    · rw [hnew, ← hold]
      exact Parser.readsString_stringText _

/-! ### A specifier that ends in NUL and gets a digit -/

def awkwardText : List Char :=
  "import './\"\\0'".toList

/-- The values of the sources in a parsed text. -/
def sourceValues (parsed : Except Diagnostic (Module × Comments)) : Option (List (Option Codes)) :=
  parsed.toOption.map fun m ↦ m.1.items.map fun i ↦ i.source?.map (·.value)

theorem sourceValues_awkwardText : sourceValues (parse (String.ofList (withoutMark awkwardText))) =
    some [some (.ofString "./\"\x00")] := by
  unfold parse
  rw [String.toList_ofList]
  decide +kernel

theorem exists_parsed_awkwardText (path : Path) : ∃ m comments i s,
    parseModule (withoutMark awkwardText) path = .ok (m, comments) ∧ m.items = [i] ∧
      i.source? = some s ∧ s.value = .ofString "./\"\x00" := by
  have hvalues := sourceValues_awkwardText
  unfold parseModule
  generalize parse (String.ofList (withoutMark awkwardText)) = parsed at hvalues ⊢
  cases parsed with
  | error d => cases hvalues
  | ok parsed =>
    obtain ⟨i, hitems, hi⟩ := List.map_eq_singleton_iff.mp (Option.some.inj hvalues)
    obtain ⟨s, hs, hvalue⟩ := Option.map_eq_some_iff.mp hi
    exact ⟨parsed.1, parsed.2, i, s, rfl, hitems, hs, hvalue⟩

/-- The zero is written with two digits, and the mark is `'` since the specifier holds the other. -/
theorem readsString_awkwardText : ∃ m comments linked log i s,
    linkSource awkwardText (.ofString "a") ⟨[], "1", true⟩ = (.ok linked, log) ∧ m.items = [i] ∧
      PrintedSource "1" m comments linked.code [] i "./\"\x00" "./\"\x001" s ∧
      s.text = "'./\"\\x001'" := by
  obtain ⟨m, comments, i, s, hparse, hitems, hs, hvalue⟩ :=
    exists_parsed_awkwardText (.ofString "a")
  obtain ⟨linked, log, hlink⟩ : ∃ linked log,
      linkSource awkwardText (.ofString "a") ⟨[], "1", true⟩ = (.ok linked, log) := by
    unfold linkSource
    rw [hparse]
    exact ⟨_, _, rfl⟩
  obtain ⟨m', comments', hparse', -, hprinted⟩ := readsString_of_linkSource rfl hlink
  obtain ⟨rfl, rfl⟩ : m = m' ∧ comments = comments' := by simpa [hparse] using hparse'
  have hold : s.value.lossy = "./\"\x00" := by rw [hvalue, Codes.lossy_ofString]
  have hrelative : isRelative s.value.lossy := by rw [hold]; decide
  have hrewritten : (Relinker.item "1" i).2 =
      some (.specifierRewritten "./\"\x00" "./\"\x001") := by
    simp only [Relinker.item, hs, hold]
    rfl
  obtain ⟨-, s', hs'⟩ := hprinted [] i [] _ _ hitems hrewritten
  refine ⟨m, comments, linked, log, i, s', hlink, hitems, hs', ?_⟩
  have hsource := hs'.source
  rw [Relinker.item_of_relative "1" hs hrelative, ModuleItem.source?_withSource hs] at hsource
  rw [← Option.some.inj hsource, Relinker.suffixed, hold]
  rfl

/-! ### A name that is a keyword once its escape is read -/

/-- A module without relative specifiers is left as it is. -/
theorem Relinker.run_of_relatives_eq_nil (suffix : String) (n : ℕ) {m : Module}
    (hm : relatives m = []) : Relinker.run ⟨suffix, n⟩ m = (m, ⟨suffix, n⟩, []) := by
  have hitem : ∀ i ∈ m.items, Relinker.item suffix i = (i, none) := by
    intro i hi
    have hnone : relative? i = none := List.filterMap_eq_nil_iff.mp hm i hi
    have hsnd : (Relinker.item suffix i).2 = none := by rw [item_snd_eq, hnone, Option.map_none]
    refine Prod.ext (Relinker.item_of_not_relative suffix ?_) hsnd
    intro s hs hrelative
    simp [relative?, hs, Option.filter, hrelative] at hnone
  have hitems : m.items.map (Relinker.item suffix) = m.items.map fun i ↦ (i, none) :=
    List.map_congr_left hitem
  simp [Relinker.run, hitems, Function.comp_def]

/-- Without plugins and relative specifiers, a text is printed as it was parsed. -/
theorem linkSource_of_relatives_eq_nil {m : Module} {comments : Comments}
    (hparse : parseModule (withoutMark source) path = .ok (m, comments))
    (hplugins : o.plugins = []) (hm : relatives m = []) : linkSource source path o =
      (.ok ⟨m.print (if o.preserveComments then comments else []), 0⟩, []) := by
  unfold linkSource
  rw [hparse]
  simp only [runPlugins, hplugins, List.foldl_nil, List.map_nil, List.nil_append,
    Relinker.run_of_relatives_eq_nil o.suffix 0 hm]

/-- A declaration of `if`, which is a name here since its first letter is escaped. -/
def escapedText : List Char :=
  "var \\u0069f".toList

/-- The relative specifiers and the comments of a parsed text, and its print without them. -/
def outline (parsed : Except Diagnostic (Module × Comments)) :
    Option (List String × Comments × String) :=
  parsed.toOption.map fun m ↦ (relatives m.1, m.2, m.1.print [])

theorem outline_escapedText : outline (parse (String.ofList (withoutMark escapedText))) =
    some ([], [], "var if;\n") := by
  unfold parse
  rw [String.toList_ofList]
  decide +kernel

theorem exists_parsed_escapedText (path : Path) : ∃ m,
    parseModule (withoutMark escapedText) path = .ok (m, []) ∧ relatives m = [] ∧
      m.print [] = "var if;\n" := by
  have houtline := outline_escapedText
  unfold parseModule
  generalize parse (String.ofList (withoutMark escapedText)) = parsed at houtline ⊢
  cases parsed with
  | error d => cases houtline
  | ok parsed =>
    obtain ⟨m, comments⟩ := parsed
    obtain ⟨hrelatives, rfl, hprint⟩ :
        relatives m = [] ∧ comments = [] ∧ m.print [] = "var if;\n" := by
      simpa [outline, Except.toOption] using houtline
    exact ⟨m, rfl, hrelatives, hprint⟩

/-- What is wrong with a text, and where. -/
def complaint (parsed : Except Diagnostic (Module × Comments)) : Option (Problem × ℕ) :=
  match parsed with
  | .error d => some (d.problem, d.span.lo)
  | .ok _ => none

theorem complaint_keyword : complaint (parse (String.ofList "var if;\n".toList)) =
    some (.identExpected, 4) := by
  unfold parse
  rw [String.toList_ofList]
  decide +kernel

theorem parseModule_keyword (path : Path) :
    parseModule "var if;\n".toList path = .error (.parse path .identExpected ⟨1, 5⟩) := by
  have hcomplaint := complaint_keyword
  have hplace : Location.ofOffset "var if;\n".toList 4 = ⟨1, 5⟩ := by decide +kernel
  unfold parseModule
  generalize parse (String.ofList "var if;\n".toList) = parsed at hcomplaint ⊢
  cases parsed with
  | error d =>
    obtain ⟨hproblem, hlo⟩ := Prod.mk.inj (Option.some.inj hcomplaint)
    simp only [hproblem, hlo, hplace]
  | ok parsed => cases hcomplaint

/-- The text is linked with any suffix, with comments or without, and what is printed for it is
refused whatever it is linked with. -/
theorem not_parsed_escapedText : ∀ (path : Path) (suffix : String) (preserveComments : Bool),
    ∃ linked, linkSource escapedText path ⟨[], suffix, preserveComments⟩ = (.ok linked, []) ∧
      linked.code = "var if;\n" ∧ ∀ (path' : Path) (o : Options),
        linkSource linked.code.toList path' o =
          (.error (.parse path' .identExpected ⟨1, 5⟩), []) := by
  intro path suffix preserveComments
  obtain ⟨m, hparse, hrelatives, hprint⟩ := exists_parsed_escapedText path
  have hlink := linkSource_of_relatives_eq_nil (o := ⟨[], suffix, preserveComments⟩)
    hparse rfl hrelatives
  rw [ite_self, hprint] at hlink
  refine ⟨_, hlink, rfl, ?_⟩
  intro path' o
  have hmark : withoutMark "var if;\n".toList = "var if;\n".toList := by decide +kernel
  unfold linkSource
  rw [hmark, parseModule_keyword]

end Link

end BundleLink
