import BundleLink.Proofs.CommandLine.Reading

/-!
The reader of a command line reads what its words spell. Words that belong together in the grammar
bring it on by the arguments that they give (`Word.exists_foldlM`), and it gets on with no others
(`Tells.getsOn_of_next`), so the calls that it reads to the end are the valid spellings
(`reads_iff`), and those at which it stops for a text are the ones that ask for it
(`finish_eq_error_iff`).
-/

set_option autoImplicit false

namespace BundleLink.CommandLine

open BundleLink.Text

open Reading (dash equalsSign orHalt)

variable {g : List (Argument × Bytes)} {r r' : Reading}

/-! ### The words of the grammar are read -/

theorem letters_cons {f : Argument} {letter : Char} (hletter : f.short? = some letter)
    (fs : List Argument) : letters (f :: fs) = encode [letter] ++ letters fs := by
  rw [letters, List.filterMap_cons_some hletter, ← List.singleton_append, encode_append]
  rfl

/-- Flags are taken one by one. -/
theorem Tells.exists_cluster {fs : List Argument} (hfs : ∀ f ∈ fs, f.IsFlag) (hr : Tells g r)
    (hg : Valid (g ++ flagged fs)) :
    ∃ r', Tells (g ++ flagged fs) r' ∧ ∀ bs, cluster r (letters fs ++ bs) = cluster r' bs := by
  induction fs generalizing g r with
  | nil => exact ⟨r, by simpa [flagged] using hr, fun bs ↦ rfl⟩
  | cons f fs ih =>
    obtain ⟨hf, hfs⟩ := List.forall_mem_cons.mp hfs
    obtain ⟨letter, hletter⟩ := hf.exists_short
    have hcons : g ++ flagged (f :: fs) = g ++ [(f, [])] ++ flagged fs := by
      rw [List.append_assoc]
      rfl
    rw [hcons] at hg ⊢
    have htake := (hr.take_flag_iff hf).mpr ⟨hg.left, rfl⟩
    obtain ⟨r', hr', hcluster⟩ := ih hfs (.accepted hg.left) hg
    refine ⟨r', hr', fun bs ↦ ?_⟩
    rw [letters_cons hletter, List.append_assoc, cluster_flag r hletter hf.takesValue_eq, htake]
    exact hcluster bs

theorem next_letters (hended : r.ended = false) {fs : List Argument} (hfs : ∀ f ∈ fs, f.IsFlag)
    {a : Argument} {letter : Char} (hletter : a.short? = some letter) (bs : Bytes) :
    r.next (dash :: (letters fs ++ encode [letter] ++ bs)) =
      cluster r (letters fs ++ (encode [letter] ++ bs)) := by
  have hfirst : ∀ {a : Argument} {letter : Char}, a.short? = some letter → ∀ bs,
      r.next (dash :: (encode [letter] ++ bs)) = cluster r (encode [letter] ++ bs) := by
    intro a letter hletter bs
    obtain ⟨b, hb, hdash⟩ := Argument.exists_encode_letter hletter
    rw [hb, List.singleton_append]
    exact next_eq_cluster hended hdash bs
  rw [List.append_assoc]
  cases fs with
  | nil => exact hfirst hletter bs
  | cons f fs =>
    obtain ⟨letter', hletter'⟩ := (List.forall_mem_cons.mp hfs).1.exists_short
    rw [letters_cons hletter', List.append_assoc]
    exact hfirst hletter' _

theorem next_flags (hended : r.ended = false) {fs : List Argument} (hfs : ∀ f ∈ fs, f.IsFlag)
    (hne : fs ≠ []) : r.next (dash :: letters fs) = cluster r (letters fs) := by
  obtain ⟨f, fs, rfl⟩ := List.exists_cons_of_ne_nil hne
  obtain ⟨letter, hletter⟩ := (List.forall_mem_cons.mp hfs).1.exists_short
  have hnext := next_letters hended (List.forall_mem_nil _) hletter (letters fs)
  rwa [letters_cons hletter]

/-- What comes before a value brings the reader to the option. -/
theorem Lead.exists_option {lead : Bytes} {fs : List Argument} {a : Argument}
    (hlead : Lead lead fs a) (hr : Tells g r) (hg : Valid (g ++ flagged fs)) :
    ∃ r', Tells (g ++ flagged fs) r' ∧ r.next lead = r'.option a none ∧
      ∀ value, r.next (lead ++ equalsSign :: value) = r'.option a (some value) := by
  cases hlead with
  | long htakes hword =>
    refine ⟨r, by simpa [flagged] using hr, ?_, fun value ↦ ?_⟩
    · rw [next_long hr.ended_eq hword, if_pos htakes]
    · exact next_long_equals hr.ended_eq hword htakes value
  | @short _ _ letter hfs htakes hletter =>
    obtain ⟨r', hr', hcluster⟩ := hr.exists_cluster hfs hg
    refine ⟨r', hr', ?_, fun value ↦ ?_⟩
    · have hnext := next_letters hr.ended_eq hfs hletter []
      rwa [List.append_nil, hcluster, cluster_option r' hletter htakes] at hnext
    · rw [List.cons_append, next_letters hr.ended_eq hfs hletter, hcluster,
        cluster_option r' hletter htakes]
      rfl

theorem Lead.takesValue {lead : Bytes} {fs : List Argument} {a : Argument}
    (hlead : Lead lead fs a) : a.takesValue ∧ a ≠ .packageDir := by
  cases hlead with
  | long htakes hword => exact ⟨htakes, Argument.ne_packageDir_of_long hword⟩
  | short _ htakes hletter => exact ⟨htakes, Argument.ne_packageDir_of_short hletter⟩

/-- Words that belong together bring the reader on by the arguments that they give. -/
theorem Word.exists_foldlM {tokens : List Bytes} {ps : List (Argument × Bytes)}
    (hword : Word tokens ps) (hr : Tells g r) (hg : Valid (g ++ ps)) :
    ∃ r', tokens.foldlM Reading.next r = .ok r' ∧ Tells (g ++ ps) r' := by
  cases hword with
  | @place word hword =>
    have hnew := (valid_concat.mp hg).2.1
    refine ⟨_, ?_, tells_pending rfl hg⟩
    rw [List.foldlM_cons, hr.next_eq_place hword, (hr.place_iff word).mpr ⟨⟨hnew, hg.left⟩, rfl⟩]
    rfl
  | @flag f word hf hword =>
    refine ⟨_, ?_, .accepted hg⟩
    rw [List.foldlM_cons, next_long hr.ended_eq hword, hf.takesValue_eq, if_neg Bool.false_ne_true,
      (hr.take_flag_iff hf).mpr ⟨hg, rfl⟩]
    rfl
  | @flags fs hne hfs =>
    obtain ⟨r', hr', hcluster⟩ := hr.exists_cluster hfs hg
    refine ⟨r', ?_, hr'⟩
    have hall := hcluster []
    rw [List.append_nil, cluster_nil] at hall
    rw [List.foldlM_cons, next_flags hr.ended_eq hfs hne, hall]
    rfl
  | @equals lead fs a value hlead =>
    obtain ⟨htakes, ha⟩ := hlead.takesValue
    rw [← List.append_assoc] at hg ⊢
    obtain ⟨r', hr', -, hnext⟩ := hlead.exists_option hr hg.left
    refine ⟨_, ?_, .accepted hg⟩
    rw [List.foldlM_cons, hnext, (hr'.option_some_iff htakes ha value).mpr ⟨hg, rfl⟩]
    rfl
  | @attached fs a letter value hfs htakes hletter hne hhead =>
    rw [← List.append_assoc] at hg ⊢
    obtain ⟨r', hr', hcluster⟩ := hr.exists_cluster hfs hg.left
    refine ⟨_, ?_, .accepted hg⟩
    rw [List.foldlM_cons, next_letters hr.ended_eq hfs hletter, hcluster,
      cluster_option r' hletter htakes, attached?_of_head? hne hhead,
      (hr'.option_some_iff htakes (Argument.ne_packageDir_of_short hletter) value).mpr ⟨hg, rfl⟩]
    rfl
  | @apart lead fs a value hlead hvalue =>
    obtain ⟨htakes, ha⟩ := hlead.takesValue
    rw [← List.append_assoc] at hg ⊢
    obtain ⟨r', hr', hnext, -⟩ := hlead.exists_option hr hg.left
    refine ⟨_, ?_, tells_pending htakes hg⟩
    have hlead' := (hr'.option_none_iff a).mpr ⟨hg.left, rfl⟩
    have hvalue' := awaiting_next hvalue (g ++ flagged fs) a
    rw [settled_concat ha]
    exact bind_eq_ok.mpr ⟨_, hnext.trans hlead', bind_eq_ok.mpr ⟨_, hvalue', rfl⟩⟩

/-! ### Words that ask for a text -/

/-- A word after two dashes that is not refused names an argument. -/
theorem exists_long_eq {word : Bytes} {value : Option Bytes}
    (hnot : ¬Refuses (r.long word value)) :
    ∃ (a : Argument) (w : String), a.long? = some w ∧ word = bytesOf w ∧
      (a.takesValue ∧ r.long word value = r.option a value ∨
        a.takesValue = false ∧ value = none ∧ r.long word value = r.take a none) := by
  rw [Reading.long] at hnot ⊢
  cases hfind : (decode? word).bind fun cs ↦ Argument.ofLong? (String.ofList cs) with
  | none =>
    rw [hfind] at hnot
    exact absurd ⟨_, rfl⟩ hnot
  | some a =>
    obtain ⟨cs, hcs, ha⟩ := Option.bind_eq_some_iff.mp hfind
    refine ⟨a, String.ofList cs, Argument.ofLong?_eq_some.mp ha, ?_, ?_⟩
    · rw [decode?_eq_some.mp hcs, bytesOf, String.toList_ofList]
    · simp only [hfind] at hnot ⊢
      cases htakes : a.takesValue with
      | true => exact Or.inl ⟨rfl, rfl⟩
      | false =>
        rw [htakes, if_neg Bool.false_ne_true] at hnot
        cases value with
        | none => exact Or.inr ⟨rfl, rfl, rfl⟩
        | some v => exact absurd ⟨_, rfl⟩ hnot

/-- Bytes around their first equals sign. -/
theorem eq_takeWhile_append {bs : Bytes} (hmem : equalsSign ∈ bs) :
    bs = bs.takeWhile (· ≠ equalsSign) ++
      equalsSign :: bs.drop ((bs.takeWhile (· ≠ equalsSign)).length + 1) := by
  induction bs with
  | nil => cases hmem
  | cons b bs ih =>
    by_cases hb : b = equalsSign
    · simp [hb]
    · have htake : (b :: bs).takeWhile (· ≠ equalsSign) = b :: bs.takeWhile (· ≠ equalsSign) := by
        simp [hb]
      rw [htake, List.cons_append, List.length_cons, List.drop_succ_cons]
      exact congrArg (b :: ·) (ih ((List.mem_cons.mp hmem).resolve_left (Ne.symm hb)))

/-- What comes of a word that is not refused: it gives arguments, it names one that still needs its
value, or it asks for a text. -/
inductive GetsOn (g : List (Argument × Bytes)) (word : Bytes) : Except Halt Reading → Prop
  | gives {ps : List (Argument × Bytes)} {r : Reading} : Word [word] ps → Tells (g ++ ps) r →
      GetsOn g word (.ok r)
  | names {fs : List Argument} {a : Argument} : Lead word fs a → Valid (g ++ flagged fs) →
      GetsOn g word (.ok (awaiting (g ++ flagged fs) a))
  | asks {ps : List (Argument × Bytes)} {h : Halt} : Inquiry word ps h → Valid (g ++ ps) →
      GetsOn g word (.error h)

theorem Tells.getsOn_of_long (hr : Tells g r) {rest : Bytes} (hrest : rest ≠ [])
    (hnot : ¬Refuses (r.next (dash :: dash :: rest))) :
    GetsOn g (dash :: dash :: rest) (r.next (dash :: dash :: rest)) := by
  rw [next_eq_long hr.ended_eq hrest] at hnot ⊢
  obtain ⟨a, w, hw, htake, hlong⟩ := exists_long_eq hnot
  have ha := Argument.ne_packageDir_of_long hw
  by_cases hmem : equalsSign ∈ rest
  · have hsplit := eq_takeWhile_append hmem
    rw [if_pos hmem] at hlong hnot ⊢
    rw [htake] at hsplit hlong hnot ⊢
    generalize rest.drop ((bytesOf w).length + 1) = value at hsplit hlong hnot ⊢
    rcases hlong with ⟨htakes, hoption⟩ | ⟨-, hnone, -⟩
    · rw [hoption] at hnot ⊢
      obtain ⟨r', hr'⟩ := (decided_option htakes r _).exists_ok hnot
      obtain ⟨hg, rfl⟩ := (hr.option_some_iff htakes ha value).mp hr'
      rw [hr', hsplit]
      exact .gives (.equals value (.long htakes hw)) (.accepted hg)
    · cases hnone
  · have hword : rest = bytesOf w := by
      rw [← htake, eq_comm, List.takeWhile_eq_self_iff]
      exact fun b hb ↦ decide_eq_true (ne_of_mem_of_not_mem hb hmem)
    rw [if_neg hmem] at hlong hnot ⊢
    rcases hlong with ⟨htakes, hoption⟩ | ⟨htakes, -, hflag⟩
    · rw [hoption] at hnot ⊢
      obtain ⟨r', hr'⟩ := (decided_option htakes r _).exists_ok hnot
      obtain ⟨hg, rfl⟩ := (hr.option_none_iff a).mp hr'
      have hnames := GetsOn.names (g := g) (.long htakes hw) (by simpa [flagged] using hg)
      rw [hr', hword]
      simpa [flagged] using hnames
    · rw [hflag] at hnot ⊢
      rw [hword]
      rcases Argument.isFlag_or_asks htakes with hf | ⟨h, hasks⟩
      · obtain ⟨r', hr'⟩ := (decided_take hf.asks?_eq r none).exists_ok hnot
        obtain ⟨hg, rfl⟩ := (hr.take_flag_iff hf).mp hr'
        rw [hr']
        exact .gives (.flag hf hw) (.accepted hg)
      · have hg := hr.valid_of_take hnot
        rw [hr.take_asks hg hasks]
        exact .asks (.long hasks hw) (by rwa [List.append_nil])

theorem letters_concat {f : Argument} {letter : Char} (hletter : f.short? = some letter)
    (fs : List Argument) : letters (fs ++ [f]) = letters fs ++ encode [letter] := by
  rw [letters, List.filterMap_append, encode_append, List.filterMap_cons_some hletter]
  rfl

/-- The letters after one dash are those of flags, and after them one of an option or one that asks
for a text. The induction is on the letters still to be read, after those of the flags `fs`. -/
theorem Tells.getsOn_of_cluster {fs : List Argument} (hfs : ∀ f ∈ fs, f.IsFlag) {bs : Bytes}
    (hne : fs ≠ [] ∨ bs ≠ []) (hr : Tells (g ++ flagged fs) r) (hnot : ¬Refuses (cluster r bs)) :
    GetsOn g (dash :: (letters fs ++ bs)) (cluster r bs) := by
  induction hlength : bs.length using Nat.strong_induction_on generalizing fs r bs with
  | _ n ih
  subst hlength
  rcases exists_letter_of_cluster hnot with rfl | ⟨a, letter, bs, hletter, rfl⟩
  · rw [List.append_nil]
    exact .gives (.flags (hne.resolve_right fun h ↦ h rfl) hfs) hr
  · have ha := Argument.ne_packageDir_of_short hletter
    rw [← List.append_assoc]
    cases htakes : a.takesValue with
    | true =>
      rw [cluster_option r hletter htakes] at hnot ⊢
      obtain ⟨r', hr'⟩ := (decided_option htakes r _).exists_ok hnot
      rw [hr']
      rcases bs with _ | ⟨b, bs⟩
      · obtain ⟨hg, rfl⟩ := (hr.option_none_iff a).mp hr'
        rw [List.append_nil]
        exact .names (.short hfs htakes hletter) hg
      · by_cases hequals : b = equalsSign
        · subst hequals
          obtain ⟨hg, rfl⟩ := (hr.option_some_iff htakes ha bs).mp hr'
          refine .gives (.equals bs (.short hfs htakes hletter)) ?_
          rw [← List.append_assoc]
          exact .accepted hg
        · have hhead : (b :: bs).head? ≠ some equalsSign := by simpa using hequals
          rw [attached?_of_head? (List.cons_ne_nil b bs) hhead] at hr'
          obtain ⟨hg, rfl⟩ := (hr.option_some_iff htakes ha _).mp hr'
          refine .gives (.attached hfs htakes hletter (List.cons_ne_nil b bs) hhead) ?_
          rw [← List.append_assoc]
          exact .accepted hg
    | false =>
      rw [cluster_flag r hletter htakes] at hnot ⊢
      have htake : ¬Refuses (r.take a none) := fun h ↦ hnot (h.bind _)
      rcases Argument.isFlag_or_asks htakes with hf | ⟨h, hasks⟩
      · obtain ⟨r', hr'⟩ := (decided_take hf.asks?_eq r none).exists_ok htake
        obtain ⟨hg, rfl⟩ := (hr.take_flag_iff hf).mp hr'
        have hflagged : g ++ flagged fs ++ [(a, [])] = g ++ flagged (fs ++ [a]) := by
          simp [flagged]
        obtain ⟨b, hb, -⟩ := Argument.exists_encode_letter hletter
        rw [hr'] at hnot ⊢
        rw [← letters_concat hletter]
        have hread := Tells.accepted hg
        rw [hflagged] at hread hnot ⊢
        refine ih bs.length (by simp [hb]) ?_ (Or.inl (by simp)) hread hnot rfl
        exact List.forall_mem_append.mpr ⟨hfs, List.forall_mem_singleton.mpr hf⟩
      · have hg := hr.valid_of_take htake
        rw [hr.take_asks hg hasks]
        exact .asks (.letter bs hfs hasks hletter) hg

/-- What comes of one more word, unless it is refused or ends the options. -/
theorem Tells.getsOn_of_next (hr : Tells g r) {word : Bytes} (hdashes : word ≠ [dash, dash])
    (hnot : ¬Refuses (r.next word)) : GetsOn g word (r.next word) := by
  rcases standing_or word with hword | rfl | ⟨b, rest, rfl⟩ | ⟨b, rest, hb, rfl⟩
  · rw [hr.next_eq_place hword] at hnot ⊢
    obtain ⟨r', hr'⟩ := (decided_place r word).exists_ok hnot
    obtain ⟨⟨-, hg⟩, rfl⟩ := (hr.place_iff word).mp hr'
    rw [hr']
    exact .gives (.place hword) (.pending rfl rfl hg)
  · exact absurd rfl hdashes
  · exact hr.getsOn_of_long (List.cons_ne_nil b rest) hnot
  · rw [next_eq_cluster hr.ended_eq hb] at hnot ⊢
    have hr' : Tells (g ++ flagged []) r := by simpa [flagged] using hr
    exact hr'.getsOn_of_cluster (List.forall_mem_nil _) (Or.inr (List.cons_ne_nil b rest)) hnot

/-! ### An argument that waits for its value -/

theorem awaiting_settle {a : Argument} (htakes : a.takesValue) :
    orHalt (awaiting g a).settle ≠ .ok r' := by
  have hsettle : (awaiting g a).settle = (settled g).accept a none := rfl
  rw [hsettle, Ne, orHalt_eq_ok]
  simp [Reading.accept, htakes]

/-- A word that is neither a value nor two dashes settles what is pending. -/
theorem exists_settle_of_next (hended : r.ended = false) {word : Bytes} (hword : ¬Standing word)
    (hdashes : word ≠ [dash, dash]) (hnot : ¬Refuses (r.next word)) :
    ∃ r₁, orHalt r.settle = .ok r₁ := by
  rcases standing_or word with hstanding | rfl | ⟨b, rest, rfl⟩ | ⟨b, rest, hb, rfl⟩
  · exact absurd hstanding hword
  · exact absurd rfl hdashes
  · rw [next_eq_long hended (List.cons_ne_nil b rest)] at hnot
    obtain ⟨a, w, -, -, ⟨-, heq⟩ | ⟨-, -, heq⟩⟩ := exists_long_eq hnot
    · exact exists_settle_of_option (heq ▸ hnot)
    · exact exists_settle_of_take (heq ▸ hnot)
  · rw [next_eq_cluster hended hb] at hnot
    rcases exists_letter_of_cluster hnot with hnil | ⟨a, letter, bs, hletter, hbs⟩
    · cases hnil
    · rw [hbs] at hnot
      cases htakes : a.takesValue with
      | true =>
        rw [cluster_option r hletter htakes] at hnot
        exact exists_settle_of_option hnot
      | false =>
        rw [cluster_flag r hletter htakes] at hnot
        exact exists_settle_of_take fun h ↦ hnot (h.bind _)

theorem standing_of_awaiting_next {a : Argument} (htakes : a.takesValue) {word : Bytes}
    (hnot : ¬Refuses ((awaiting g a).next word)) : word = [dash, dash] ∨ Standing word := by
  by_contra hword
  rw [not_or] at hword
  obtain ⟨r₁, hr₁⟩ := exists_settle_of_next rfl hword.2 hword.1 hnot
  exact awaiting_settle htakes hr₁

/-! ### Calls -/

/-- Reads words to their end. -/
def finish (r : Reading) (words : List Bytes) : Except Halt Reading := do
  let r ← words.foldlM Reading.next r
  orHalt r.settle

/-- Words are read to their end, and these are then the arguments given. -/
def Reads (r : Reading) (words : List Bytes) (all : List (Argument × Bytes)) : Prop :=
  ∃ r', finish r words = .ok r' ∧ r'.given = all

theorem reads_nil_iff {all : List (Argument × Bytes)} :
    Reads r [] all ↔ ∃ r', orHalt r.settle = .ok r' ∧ r'.given = all :=
  Iff.rfl

theorem finish_append (r : Reading) (tokens words : List Bytes) :
    finish r (tokens ++ words) = tokens.foldlM Reading.next r >>= fun r ↦ finish r words := by
  simp only [finish, List.foldlM_append, bind_assoc]

theorem finish_cons (r : Reading) (word : Bytes) (words : List Bytes) :
    finish r (word :: words) = r.next word >>= fun r ↦ finish r words := by
  simp only [finish, List.foldlM_cons, bind_assoc]

theorem reads_cons_iff {word : Bytes} {words : List Bytes} {all : List (Argument × Bytes)} :
    Reads r (word :: words) all ↔ ∃ r', r.next word = .ok r' ∧ Reads r' words all := by
  simp only [Reads, finish_cons, bind_eq_ok]
  constructor
  · rintro ⟨last, ⟨r', hr', hfinish⟩, hall⟩
    exact ⟨r', hr', last, hfinish, hall⟩
  · rintro ⟨r', hr', last, hfinish, hall⟩
    exact ⟨last, ⟨r', hr', hfinish⟩, hall⟩

/-- The reading after two dashes. -/
def closed (r : Reading) : Reading :=
  { r with ended := true }

theorem closed_accept (r : Reading) (a : Argument) (value : Option Bytes) :
    (closed r).accept a value = (closed (r.accept a value).1, (r.accept a value).2) := by
  have hhas : (closed r).has a = r.has a := rfl
  unfold Reading.accept
  rw [hhas]
  split
  · rfl
  · split_ifs <;> rfl

theorem orHalt_closed_settle (r : Reading) :
    orHalt (closed r).settle = (orHalt r.settle).map closed := by
  have hsettle : (closed r).settle = (closed r.settle.1, r.settle.2) := by
    obtain ⟨given, pending, placed, ended⟩ := r
    cases pending with
    | none => rfl
    | some p => exact closed_accept { given := given, placed := placed, ended := ended } p.1 p.2
  rw [hsettle]
  obtain ⟨r', _ | fault⟩ := r.settle
  · rfl
  · rfl

/-- After two dashes every word is one in its place. -/
theorem closed_next (r : Reading) (word : Bytes) :
    (closed r).next word = (r.place word).map closed := by
  have hnext : (closed r).next word = (closed r).place word := if_pos rfl
  have hplaced : (closed r).placed = r.placed := rfl
  rw [hnext, Reading.place, Reading.place, hplaced, orHalt_closed_settle]
  split_ifs
  · rfl
  · cases orHalt r.settle with
    | ok r' => rfl
    | error h => rfl

theorem Tells.reads_closed_iff (words : List Bytes) {all : List (Argument × Bytes)}
    (hr : Tells g r) : Reads (closed r) words all ↔
      Valid (g ++ words.map (.packageDir, ·)) ∧ all = g ++ words.map (.packageDir, ·) := by
  induction words generalizing g r with
  | nil =>
    simp only [reads_nil_iff, orHalt_closed_settle, map_eq_ok, hr.settle_iff, List.map_nil,
      List.append_nil]
    constructor
    · rintro ⟨_, ⟨_, ⟨hg, rfl⟩, rfl⟩, rfl⟩
      exact ⟨hg, rfl⟩
    · rintro ⟨hg, rfl⟩
      exact ⟨_, ⟨_, ⟨hg, rfl⟩, rfl⟩, rfl⟩
  | cons word words ih =>
    have hcons : g ++ (word :: words).map (Argument.packageDir, ·) =
        g ++ [(.packageDir, word)] ++ words.map (Argument.packageDir, ·) := by
      rw [List.append_assoc]
      rfl
    rw [hcons]
    simp only [reads_cons_iff, closed_next, map_eq_ok, hr.place_iff]
    constructor
    · rintro ⟨_, ⟨_, ⟨⟨-, hg⟩, rfl⟩, rfl⟩, hread⟩
      exact (ih (.pending rfl rfl hg)).mp hread
    · intro hall
      obtain ⟨hg, hnew, -⟩ := valid_concat.mp hall.1.left
      exact ⟨_, ⟨_, ⟨⟨hnew, hg⟩, rfl⟩, rfl⟩, (ih (.pending rfl rfl hg)).mpr hall⟩

/-- After two dashes no text is asked for. -/
theorem decided_finish_closed (r : Reading) (words : List Bytes) :
    Decided (finish (closed r) words) := by
  induction words generalizing r with
  | nil => exact decided_orHalt _
  | cons word words ih =>
    rw [finish_cons, closed_next]
    rcases decided_place r word with ⟨refusal, hplace⟩ | ⟨r', hplace⟩
    · rw [hplace]
      exact Or.inl ⟨refusal, rfl⟩
    · rw [hplace]
      exact ih r'

theorem refuses_closed_awaiting {a : Argument} (htakes : a.takesValue) (words : List Bytes) :
    Refuses (finish (closed (awaiting g a)) words) := by
  refine (decided_finish_closed _ words).resolve_right ?_
  rintro ⟨last, hlast⟩
  cases words with
  | nil =>
    obtain ⟨r', hr', -⟩ := map_eq_ok.mp ((orHalt_closed_settle _).symm.trans hlast)
    exact awaiting_settle htakes hr'
  | cons word words =>
    rw [finish_cons, closed_next] at hlast
    obtain ⟨_, hplace, -⟩ := bind_eq_ok.mp hlast
    obtain ⟨r', hr', -⟩ := map_eq_ok.mp hplace
    rw [Reading.place] at hr'
    split_ifs at hr'
    obtain ⟨r₁, hr₁, -⟩ := bind_eq_ok.mp hr'
    exact awaiting_settle htakes hr₁

/-- The word after an option is its value. -/
theorem exists_value_of_finish {a : Argument} (htakes : a.takesValue) (ha : a ≠ .packageDir)
    (hg : Valid g) {words : List Bytes} (hnot : ¬Refuses (finish (awaiting g a) words)) :
    ∃ value rest r', words = value :: rest ∧ Standing value ∧ Tells (g ++ [(a, value)]) r' ∧
      finish (awaiting g a) words = finish r' rest := by
  cases words with
  | nil =>
    obtain ⟨r', hr'⟩ := (decided_orHalt _).exists_ok hnot
    exact absurd hr' (awaiting_settle htakes)
  | cons value rest =>
    rw [finish_cons] at hnot ⊢
    rcases standing_of_awaiting_next htakes fun h ↦ hnot (h.bind _) with rfl | hvalue
    · -- Two dashes are no value, and what comes after them settles the option without one.
      rw [next_dashes rfl] at hnot
      exact absurd (refuses_closed_awaiting htakes rest) hnot
    · rw [awaiting_next hvalue]
      have hpending : Tells (g ++ [(a, value)]) _ := .pending rfl htakes hg
      rw [settled_concat ha] at hpending
      exact ⟨value, rest, _, rfl, hvalue, hpending, rfl⟩

/-- What comes of the words of a call that are not refused: they spell arguments, or they ask for a
text. -/
inductive Comes (g : List (Argument × Bytes)) (words : List Bytes) : Except Halt Reading → Prop
  | spelled {g' : List (Argument × Bytes)} {r : Reading} : Spells words g' → Valid (g ++ g') →
      r.given = g ++ g' → Comes g words (.ok r)
  | asked {g' : List (Argument × Bytes)} {h : Halt} : Asks words g' h → Valid (g ++ g') →
      Comes g words (.error h)

/-- Words that give arguments come before others. -/
theorem Comes.prepend {tokens words : List Bytes} {ps : List (Argument × Bytes)}
    {x : Except Halt Reading} (hword : Word tokens ps) (hx : Comes (g ++ ps) words x) :
    Comes g (tokens ++ words) x := by
  cases hx with
  | spelled hspells hg hgiven =>
    rw [List.append_assoc] at hg hgiven
    exact .spelled (.word hword hspells) hg hgiven
  | asked hasks hg =>
    rw [List.append_assoc] at hg
    exact .asked (.later hword hasks) hg

/-- The induction is on the number of words, since an argument may take two. -/
theorem Tells.comes (hr : Tells g r) {words : List Bytes} (hnot : ¬Refuses (finish r words)) :
    Comes g words (finish r words) := by
  induction hlength : words.length using Nat.strong_induction_on generalizing g r words with
  | _ n ih
  subst hlength
  cases words with
  | nil =>
    obtain ⟨last, hlast⟩ := (decided_orHalt _).exists_ok hnot
    obtain ⟨hg, rfl⟩ := hr.settle_iff.mp hlast
    have hfinish : finish r [] = .ok (settled g) := hlast
    rw [hfinish]
    exact .spelled .nil (by rwa [List.append_nil]) (List.append_nil g).symm
  | cons word words =>
    by_cases hdashes : word = [dash, dash]
    · subst hdashes
      rw [finish_cons, next_dashes hr.ended_eq] at hnot ⊢
      obtain ⟨last, hlast⟩ := (decided_finish_closed r words).exists_ok hnot
      obtain ⟨hg, hgiven⟩ := (hr.reads_closed_iff words).mp ⟨last, hlast, rfl⟩
      have hfinish : (Except.ok (closed r) >>= fun r ↦ finish r words) = .ok last := hlast
      exact hfinish ▸ .spelled (.ended words) hg hgiven
    · rw [finish_cons] at hnot ⊢
      have hgets := hr.getsOn_of_next hdashes fun h ↦ hnot (h.bind _)
      generalize r.next word = x at hnot hgets
      cases hgets with
      | asks hinquiry hg => exact .asked (.here words hinquiry) hg
      | gives hword hr' => exact (ih words.length (Nat.lt_succ_self _) hr' hnot rfl).prepend hword
      | @names fs a hlead hg =>
        obtain ⟨htakes, ha⟩ := hlead.takesValue
        obtain ⟨value, rest, r', rfl, hvalue, hr', heq⟩ :=
          exists_value_of_finish htakes ha hg hnot
        have hshorter : rest.length < (word :: value :: rest).length :=
          Nat.lt_add_of_pos_right Nat.two_pos
        have hfinish : (Except.ok (awaiting (g ++ flagged fs) a) >>= fun r ↦
            finish r (value :: rest)) = finish r' rest := heq
        rw [hfinish] at hnot ⊢
        have hrest := ih rest.length hshorter hr' hnot rfl
        rw [List.append_assoc] at hrest
        exact hrest.prepend (.apart hlead hvalue)

theorem Spells.reads {words : List Bytes} {g' : List (Argument × Bytes)}
    (hspells : Spells words g') (hr : Tells g r) (hg : Valid (g ++ g')) :
    Reads r words (g ++ g') := by
  induction hspells generalizing g r with
  | nil =>
    rw [List.append_nil] at hg ⊢
    exact ⟨_, hr.settle_iff.mpr ⟨hg, rfl⟩, rfl⟩
  | ended words =>
    have hread := (hr.reads_closed_iff words).mpr ⟨hg, rfl⟩
    exact reads_cons_iff.mpr ⟨_, next_dashes hr.ended_eq, hread⟩
  | word hword hspells ih =>
    rw [← List.append_assoc] at hg ⊢
    obtain ⟨r', hr', htells⟩ := hword.exists_foldlM hr hg.left
    obtain ⟨last, hlast, hall⟩ := ih htells hg
    exact ⟨last, by rw [finish_append, hr']; exact hlast, hall⟩

/-- The reader reads a call to its end exactly if its words spell arguments that are valid. -/
theorem reads_iff {words : List Bytes} {g : List (Argument × Bytes)} :
    Reads {} words g ↔ Spells words g ∧ Valid g := by
  have hstart : Tells [] {} := .accepted .nil
  constructor
  · rintro ⟨last, hlast, rfl⟩
    have hcomes := hstart.comes (hlast ▸ not_refuses_ok last)
    rw [hlast] at hcomes
    cases hcomes with
    | spelled hspells hg hgiven =>
      rw [hgiven]
      exact ⟨hspells, hg⟩
  · rintro ⟨hspells, hg⟩
    exact hspells.reads hstart hg

end BundleLink.CommandLine
