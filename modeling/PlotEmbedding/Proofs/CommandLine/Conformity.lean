import PlotEmbedding.CommandLine.Plain
import PlotEmbedding.Proofs.CommandLine.TakingIn
import PlotEmbedding.Proofs.CommandLine.Words

/-!
# The reader conforms

`Tool.read` reads a call from a command line just if the command line resolves to this call, as long
as the names and letters of the options and the words of the subcommands are told apart.
-/

namespace PlotEmbedding.CommandLine

variable {κ : Type}

/-! ## Options that are told apart -/

/-- The options of a command can be told apart by their names and by their letters, and the names
and letters can be read off a word. -/
structure ToldApart (options : List Opt) : Prop where
  named : ∀ o ∈ options, IsName o.name
  lettered : ∀ o ∈ options, o.short? ≠ some '-'
  names : ∀ o ∈ options, ∀ o' ∈ options, o.name = o'.name → o = o'
  letters : ∀ o ∈ options, ∀ o' ∈ options, o.short? ≠ none → o.short? = o'.short? → o = o'

section ToldApart

variable {options : List Opt} {o : Opt} {switch : Switch} {setting : Setting} {name : String}
  {letter : Char}

/-- Where one element at most passes a test, it is found just if it is there. -/
theorem find?_eq_some_iff_of_unique {α : Type} {l : List α} {p : α → Bool} {a : α}
    (unique : ∀ b ∈ l, p b → p a → b = a) : l.find? p = some a ↔ a ∈ l ∧ p a := by
  constructor
  · exact fun found => ⟨List.mem_of_find?_eq_some found, List.find?_some found⟩
  · -- Something is found because the element is there, and it can only be this element.
    rintro ⟨mem, passes⟩
    obtain ⟨b, found⟩ := Option.isSome_iff_exists.mp (List.find?_isSome.mpr ⟨a, mem, passes⟩)
    rw [found, unique b (List.mem_of_find?_eq_some found) (List.find?_some found) passes]

/-- An option is found by its name. -/
theorem ToldApart.find?_name (apart : ToldApart options) (known : o ∈ options) :
    options.find? (·.name == o.name) = some o :=
  (find?_eq_some_iff_of_unique fun b mem same _ =>
    apart.names b mem o known (eq_of_beq same)).mpr ⟨known, beq_self_eq_true _⟩

/-- A switch is found by its letter. -/
theorem ToldApart.find?_short (apart : ToldApart options) (known : .switch switch ∈ options)
    (spelled : switch.short = some letter) :
    options.find? (·.short? == some letter) = some (.switch switch) := by
  have short : Opt.short? (.switch switch) = some letter := spelled
  refine (find?_eq_some_iff_of_unique fun b mem same _ => ?_).mpr ⟨known, by simp [short]⟩
  have same : b.short? = some letter := eq_of_beq same
  -- Options without a letter share that they have none, so the letter is needed here.
  exact apart.letters b mem _ known (by simp [same]) (same.trans short.symm)

end ToldApart

/-! ## Clusters -/

/-- The switches are those of the letters, and all that they do is to be remembered. -/
def SpelledBy (options : List Opt) (letters : List Char) (switches : List Switch) : Prop :=
  (∀ switch ∈ switches, .switch switch ∈ options ∧ switch.effect = .mark) ∧
    switches.map Switch.short = letters.map some

/-- No cluster begins with a dash. -/
theorem SpelledBy.head?_ne {options : List Opt} {letters : List Char} {switches : List Switch}
    (spelled : SpelledBy options letters switches) (apart : ToldApart options) :
    letters.head? ≠ some '-' := by
  obtain ⟨known, spelled⟩ := spelled
  cases switches with
  | nil =>
    obtain rfl : letters = [] := List.map_eq_nil_iff.mp spelled.symm
    exact nofun
  | cons switch switches =>
    cases letters with
    | nil => exact nofun
    | cons letter letters =>
      obtain ⟨short, -⟩ := List.cons.inj spelled
      rintro ⟨⟩
      exact apart.lettered _ (known switch List.mem_cons_self).1 short

namespace Matches

variable {argument : Option Argument} {options : List Opt} {m n : Matches} {letter : Char}
  {letters : List Char}

/-- The letters take in their switches, if they are taken in from `m`. -/
def ClusterTakes (argument : Option Argument) (options : List Opt) (letters : List Char)
    (m n : Matches) : Prop :=
  m.takeCluster options letters = .ok n ↔ ∃ switches, SpelledBy options letters switches ∧
    m.Takes argument (switches.map (.option ·.name none)) n

/-- The first letter takes in its switch, and the others go on where nothing is due. -/
theorem clusterTakes_cons (apart : ToldApart options) (admits : Admits argument m.items)
    (others : ∀ k, Admits argument k.items → k.pending = none →
      ClusterTakes argument options letters k n) :
    ClusterTakes argument options (letter :: letters) m n := by
  constructor
  · intro taken
    unfold takeCluster at taken
    split at taken
    · next switch found =>
      obtain ⟨k, first, taken⟩ := bind_eq_ok_iff.mp taken
      obtain ⟨mark, takes⟩ := (takeSwitch_eq_ok_iff admits).mp first
      -- The first switch has settled what was due, which is all that sets it apart from the others.
      obtain ⟨switches, ⟨known, spelled⟩, takes'⟩ := (others k takes.admits takes.idle).mp taken
      have short := List.find?_some found
      refine ⟨switch :: switches, ⟨?_, ?_⟩, takes_cons_iff.mpr ⟨k, takes, takes'⟩⟩
      · exact List.forall_mem_cons.mpr ⟨⟨List.mem_of_find?_eq_some found, mark⟩, known⟩
      · exact List.cons_eq_cons.mpr ⟨eq_of_beq short, spelled⟩
    · cases taken
  · rintro ⟨switches, ⟨known, spelled⟩, takes⟩
    cases switches with
    | nil => cases spelled
    | cons switch switches =>
      obtain ⟨short, spelled⟩ := List.cons.inj spelled
      obtain ⟨⟨listed, mark⟩, known⟩ := List.forall_mem_cons.mp known
      obtain ⟨k, takes, takes'⟩ := takes_cons_iff.mp takes
      unfold takeCluster
      rw [apart.find?_short listed short]
      exact bind_eq_ok_iff.mpr ⟨k, (takeSwitch_eq_ok_iff admits).mpr ⟨mark, takes⟩,
        (others k takes.admits takes.idle).mpr ⟨switches, ⟨known, spelled⟩, takes'⟩⟩

/-- Where nothing is due, even no letters take in their switches. -/
theorem clusterTakes_of_idle (apart : ToldApart options) (letters : List Char)
    (admits : Admits argument m.items) (idle : m.pending = none) :
    ClusterTakes argument options letters m n := by
  induction letters generalizing m with
  | nil =>
    have same : m = { items := m.items } := by rw [← idle]
    constructor
    · rintro ⟨⟩
      exact ⟨[], ⟨nofun, rfl⟩, (takes_iff_of_idle idle).mpr (by simpa using ⟨admits, same⟩)⟩
    · rintro ⟨switches, ⟨-, spelled⟩, takes⟩
      obtain rfl : switches = [] := List.map_eq_nil_iff.mp spelled
      obtain ⟨-, rfl⟩ := (takes_iff_of_idle idle).mp takes
      rw [List.map_nil, List.append_nil, ← same]
      rfl
  | cons letter letters ih => exact clusterTakes_cons apart admits fun k => ih

/-- A cluster takes in the switches of its letters, behind what is due. -/
theorem clusterTakes (apart : ToldApart options) (admits : Admits argument m.items)
    (nonempty : letters ≠ []) : ClusterTakes argument options letters m n := by
  obtain ⟨letter, others, rfl⟩ := List.exists_cons_of_ne_nil nonempty
  exact clusterTakes_cons apart admits fun k => clusterTakes_of_idle apart others

/-- The name of a switch takes it in. -/
theorem takeLong_of_switch (apart : ToldApart options) (admits : Admits argument m.items)
    {switch : Switch} (known : .switch switch ∈ options) (mark : switch.effect = .mark)
    (takes : m.Takes argument [.option switch.name none] n) :
    m.takeLong options switch.name none = .ok n := by
  have found : options.find? (·.name == switch.name) = _ := apart.find?_name known
  unfold takeLong
  rw [found]
  exact (takeSwitch_eq_ok_iff admits).mpr ⟨mark, takes⟩

/-- A long option gives a switch, a setting with its value, or a setting that waits for it. -/
theorem takeLong_cases {name : String} {value : Option String} (admits : Admits argument m.items)
    (taken : m.takeLong options name value = .ok n) :
    (∃ switch, .switch switch ∈ options ∧ switch.name = name ∧ value = none ∧
      switch.effect = .mark ∧ m.Takes argument [.option name none] n) ∨
    (∃ setting text, .setting setting ∈ options ∧ setting.name = name ∧ value = some text ∧
      m.Takes argument [.option name (some text)] n) ∨
    (∃ setting k, .setting setting ∈ options ∧ setting.name = name ∧ value = none ∧
      m.Takes argument [] k ∧ n = { k with pending := some (setting, none) }) := by
  unfold takeLong at taken
  split at taken
  · cases taken
  · next switch found =>
    have same := List.find?_some found
    rw [beq_iff_eq] at same
    obtain ⟨mark, takes⟩ := (takeSwitch_eq_ok_iff admits).mp taken
    exact .inl ⟨switch, List.mem_of_find?_eq_some found, same, rfl, mark, same ▸ takes⟩
  · cases taken
  · -- A setting without a value waits for one, once everything before it has been settled.
    next setting found =>
    have same := List.find?_some found
    rw [beq_iff_eq] at same
    obtain ⟨k, settled, ⟨⟩⟩ := bind_eq_ok_iff.mp taken
    exact .inr (.inr ⟨setting, k, List.mem_of_find?_eq_some found, same, rfl,
      (settle_eq_ok_iff admits).mp settled, rfl⟩)
  · next setting text found =>
    have same := List.find?_some found
    rw [beq_iff_eq] at same
    have takes := (settle_bind_take_eq_ok_iff admits (.setting setting) text).mp taken
    exact .inr (.inl ⟨setting, text, List.mem_of_find?_eq_some found, same, rfl, same ▸ takes⟩)

end Matches

/-! ## The words of a subcommand -/

namespace Subcommand

open Matches

variable {s : Subcommand κ} {words : List String} {items : List Item} {m n : Matches}

/-- A subcommand concludes what has all of its arguments. -/
theorem conclude_eq_ok_iff (admits : Admits s.argument m.items) : s.conclude m = .ok n ↔
    m.Takes s.argument [] n ∧ (texts n.items).length = s.argument.toList.length := by
  unfold conclude
  rw [bind_eq_ok_iff]
  constructor
  · rintro ⟨k, settled, complete⟩
    have takes := (settle_eq_ok_iff admits).mp settled
    -- There are not too many arguments, so what is left to check is that there are not too few.
    have few := takes.admits.few
    cases argument : s.argument with
    | none =>
      rw [argument] at complete few takes
      cases complete
      exact ⟨takes, Nat.le_zero.mp few⟩
    | some a =>
      rw [argument] at complete few takes
      cases given : texts k.items with
      | nil =>
        rw [given] at complete
        cases complete
      | cons text others =>
        rw [given] at complete
        cases complete
        refine ⟨takes, ?_⟩
        rw [given] at few ⊢
        exact Nat.le_antisymm few (Nat.succ_le_succ (Nat.zero_le _))
  · rintro ⟨takes, complete⟩
    refine ⟨n, (settle_eq_ok_iff admits).mpr takes, ?_⟩
    split
    · next argument given =>
      rw [argument, given] at complete
      cases complete
    · rfl

/-- Behind the end of the options every word is taken in as an argument. -/
theorem readPlain_eq_ok_iff (admits : Admits s.argument m.items) : s.readPlain words m = .ok n ↔
    m.Takes s.argument (words.map .argument) n ∧
      (texts n.items).length = s.argument.toList.length := by
  induction words generalizing m with
  | nil => exact conclude_eq_ok_iff admits
  | cons word words ih =>
    rw [readPlain, bind_eq_ok_iff, List.map_cons, takes_cons_iff]
    constructor
    · rintro ⟨k, first, read⟩
      have takes := (takeArgument_eq_ok_iff admits).mp first
      obtain ⟨takes', complete⟩ := (ih takes.admits).mp read
      exact ⟨⟨k, takes, takes'⟩, complete⟩
    · rintro ⟨⟨k, takes, takes'⟩, complete⟩
      exact ⟨k, (takeArgument_eq_ok_iff admits).mpr takes, (ih takes.admits).mpr ⟨takes', complete⟩⟩

/-- Words that spell items are read, and the items are taken in. -/
theorem read_of_spells (apart : ToldApart s.options) (spells : Spells s.options words items)
    (admits : Admits s.argument m.items) (takes : m.Takes s.argument items n)
    (complete : (texts n.items).length = s.argument.toList.length) : s.read words m = .ok n := by
  induction spells generalizing m with
  | done => exact (conclude_eq_ok_iff admits).mpr ⟨takes, complete⟩
  | escape words => exact (readPlain_eq_ok_iff admits).mpr ⟨takes, complete⟩
  | @long switch _ _ known mark rest ih =>
    obtain ⟨k, takes, takes'⟩ := takes_cons_iff.mp takes
    have named : IsName switch.name := apart.named _ known
    rw [read, Word.ofText_long named]
    exact bind_eq_ok_iff.mpr
      ⟨k, takeLong_of_switch apart admits known mark takes, ih takes.admits takes'⟩
  | @cluster switches letters _ _ nonempty known spelled rest ih =>
    obtain ⟨k, takes, takes'⟩ := takes_append_iff.mp takes
    have spelled : SpelledBy s.options letters switches := ⟨known, spelled⟩
    rw [read, Word.ofText_cluster nonempty (spelled.head?_ne apart)]
    exact bind_eq_ok_iff.mpr ⟨k, (clusterTakes apart admits nonempty).mpr
      ⟨switches, spelled, takes⟩, ih takes.admits takes'⟩
  | @equals setting value _ _ known rest ih =>
    obtain ⟨k, takes, takes'⟩ := takes_cons_iff.mp takes
    have named : IsName setting.name := apart.named _ known
    have found : s.options.find? (·.name == setting.name) = _ := apart.find?_name known
    rw [read, Word.ofText_equals named]
    refine bind_eq_ok_iff.mpr ⟨k, ?_, ih takes.admits takes'⟩
    unfold takeLong
    rw [found]
    exact (settle_bind_take_eq_ok_iff admits (.setting setting) value).mpr takes
  | @apart setting value _ _ known plain rest ih =>
    have named : IsName setting.name := apart.named _ known
    have found : s.options.find? (·.name == setting.name) = _ := apart.find?_name known
    -- What is due is taken in at once, and the setting itself only with what comes behind.
    rw [← List.nil_append (_ :: _)] at takes
    obtain ⟨k, settled, takes⟩ := takes_append_iff.mp takes
    obtain ⟨admits', rfl⟩ := (takes_iff_of_idle settled.idle).mp takes
    rw [read, Word.ofText_long named]
    refine bind_eq_ok_iff.mpr ⟨{ k with pending := some (setting, none) }, ?_, ?_⟩
    · unfold takeLong
      rw [found]
      exact bind_eq_ok_iff.mpr ⟨k, (settle_eq_ok_iff admits).mpr settled, rfl⟩
    · rw [read, Word.ofText_of_isPlain plain]
      exact ih settled.admits
        ⟨[.option setting.name (some value)], rfl, by simpa using admits', by simp⟩
  | @argument word _ _ plain rest ih =>
    obtain ⟨k, takes, takes'⟩ := takes_cons_iff.mp takes
    rw [read, Word.ofText_of_isPlain plain]
    refine bind_eq_ok_iff.mpr ⟨k, ?_, ih takes.admits takes'⟩
    unfold takePlain
    split
    · -- No setting waits here, or the argument could not be taken in.
      next waiting => exact absurd (by rw [due, waiting]) takes.due_ne_none
    · exact (takeArgument_eq_ok_iff admits).mpr takes

/-- While a setting waits for its value, the next word has to be that value. -/
theorem exists_value_of_read {setting : Setting} (apart : ToldApart s.options)
    (admits : Admits s.argument m.items) (waiting : m.pending = some (setting, none))
    (read : s.read words m = .ok n) : ∃ value rest, words = value :: rest ∧ IsPlain value ∧
      s.read rest { m with pending := some (setting, some value) } = .ok n := by
  -- Nothing can be taken in meanwhile, so every other kind of word is an error.
  have closed {items k} : ¬ m.Takes s.argument items k := fun takes =>
    takes.due_ne_none (by rw [due, waiting])
  cases words with
  | nil => exact absurd ((conclude_eq_ok_iff admits).mp read).1 closed
  | cons word rest =>
    unfold Subcommand.read at read
    split at read
    · exact absurd ((readPlain_eq_ok_iff admits).mp read).1 closed
    · obtain ⟨k, taken, -⟩ := bind_eq_ok_iff.mp read
      obtain ⟨_, _, _, _, _, takes⟩ | ⟨_, _, _, _, _, takes⟩ | ⟨_, _, _, _, _, takes, _⟩ :=
        takeLong_cases admits taken
      all_goals exact absurd takes closed
    · next letters shape =>
      obtain ⟨k, taken, -⟩ := bind_eq_ok_iff.mp read
      obtain ⟨_, _, takes⟩ := (clusterTakes apart admits (Word.eq_of_cluster shape).2).mp taken
      exact absurd takes closed
    · next shape =>
      obtain ⟨k, taken, read⟩ := bind_eq_ok_iff.mp read
      rw [takePlain, waiting] at taken
      cases taken
      exact ⟨word, rest, rfl, Word.isPlain_of_ofText shape, read⟩

/-- Words that are read spell what is taken in. -/
theorem exists_spells_of_read (apart : ToldApart s.options) (admits : Admits s.argument m.items)
    (ready : m.due ≠ none) (read : s.read words m = .ok n) :
    ∃ items, Spells s.options words items ∧ m.Takes s.argument items n ∧
      (texts n.items).length = s.argument.toList.length := by
  -- A setting and its value are two words, so the induction is on the number of words.
  induction count : words.length using Nat.strongRecOn generalizing words m with
  | ind count ih =>
    -- What the first word takes in, and what the words behind it do, are put together here.
    have after {k : Matches} {items rest} (takes : m.Takes s.argument items k)
        (fewer : rest.length < words.length) (read : s.read rest k = .ok n) :
        ∃ later, Spells s.options rest later ∧ m.Takes s.argument (items ++ later) n ∧
          (texts n.items).length = s.argument.toList.length := by
      obtain ⟨later, spells, takes', complete⟩ :=
        ih _ (count ▸ fewer) takes.admits takes.ready read rfl
      exact ⟨later, spells, takes_append_iff.mpr ⟨k, takes, takes'⟩, complete⟩
    cases words with
    | nil =>
      obtain ⟨takes, complete⟩ := (conclude_eq_ok_iff admits).mp read
      exact ⟨[], .done, takes, complete⟩
    | cons word rest =>
      unfold Subcommand.read at read
      split at read
      · next shape =>
        obtain ⟨takes, complete⟩ := (readPlain_eq_ok_iff admits).mp read
        obtain rfl := Word.eq_of_escape shape
        exact ⟨_, .escape rest, takes, complete⟩
      · next name value shape =>
        obtain ⟨k, taken, onward⟩ := bind_eq_ok_iff.mp read
        obtain ⟨switch, known, rfl, rfl, mark, takes⟩ | ⟨setting, value, known, rfl, rfl, takes⟩ |
          ⟨setting, l, known, rfl, rfl, takes, rfl⟩ := takeLong_cases admits taken
        · obtain ⟨later, spells, takes, complete⟩ := after takes (Nat.lt_succ_self _) onward
          obtain rfl := Word.eq_of_long shape
          exact ⟨_, .long known mark spells, takes, complete⟩
        · obtain ⟨later, spells, takes, complete⟩ := after takes (Nat.lt_succ_self _) onward
          obtain rfl := Word.eq_of_equals shape
          exact ⟨_, .equals value known spells, takes, complete⟩
        · -- The word behind is the value, and the setting is taken in with what comes behind that.
          obtain ⟨value, rest, rfl, plain, onward⟩ := exists_value_of_read
            (m := { l with pending := some (setting, none) }) apart takes.admits rfl onward
          have fewer : rest.length < (word :: value :: rest).length := by
            rw [List.length_cons, List.length_cons]
            omega
          have ready : due { l with pending := some (setting, some value) } ≠ none :=
            Option.some_ne_none _
          obtain ⟨later, spells, takes', complete⟩ :=
            ih _ (count ▸ fewer) (by exact takes.admits) ready onward rfl
          obtain ⟨_, ⟨⟩, admits', rfl⟩ := takes'
          obtain rfl := Word.eq_of_long shape
          rw [List.append_assoc] at admits'
          have takes' := (takes_iff_of_idle takes.idle).mpr ⟨admits', rfl⟩
          refine ⟨_, .apart known plain spells, takes_append_iff.mpr ⟨l, takes, ?_⟩, complete⟩
          rw [List.append_assoc]
          exact takes'
      · next letters shape =>
        obtain ⟨k, taken, onward⟩ := bind_eq_ok_iff.mp read
        obtain ⟨rfl, nonempty⟩ := Word.eq_of_cluster shape
        obtain ⟨switches, ⟨known, spelled⟩, takes⟩ := (clusterTakes apart admits nonempty).mp taken
        obtain ⟨later, spells, takes, complete⟩ := after takes (Nat.lt_succ_self _) onward
        exact ⟨_, .cluster nonempty known spelled spells, takes, complete⟩
      · next shape =>
        obtain ⟨k, taken, onward⟩ := bind_eq_ok_iff.mp read
        unfold takePlain at taken
        split at taken
        · next waiting => exact absurd (by rw [due, waiting]) ready
        · have takes := (takeArgument_eq_ok_iff admits).mp taken
          obtain ⟨later, spells, takes, complete⟩ := after takes (Nat.lt_succ_self _) onward
          exact ⟨_, .argument (Word.isPlain_of_ofText shape) spells, takes, complete⟩

/-- Reading a subcommand from its first word on is taking in what its words spell. -/
theorem read_eq_ok_iff (apart : ToldApart s.options) : s.read words {} = .ok n ↔
    ∃ items, Spells s.options words items ∧ Fits s.argument items ∧ n = { items } := by
  have start {items} : Takes s.argument {} items n ↔ Admits s.argument items ∧ n = { items } :=
    takes_iff_of_idle rfl
  constructor
  · intro read
    have ready : due {} ≠ none := Option.some_ne_none _
    obtain ⟨items, spells, takes, complete⟩ := exists_spells_of_read apart admits_nil ready read
    obtain ⟨admits, rfl⟩ := start.mp takes
    exact ⟨items, spells, fits_iff.mpr ⟨admits, complete⟩, rfl⟩
  · rintro ⟨items, spells, fits, rfl⟩
    obtain ⟨admits, complete⟩ := fits_iff.mp fits
    exact read_of_spells apart spells admits_nil (start.mpr ⟨admits, rfl⟩) complete

end Subcommand

/-! ## The words of a tool -/

namespace Tool

open Matches

variable {tool : Tool κ} {s : Subcommand κ} {m n k t : Matches} {word : String}
  {before rest words : List String} {outer : List Item}

/-- The options on each level and the words of the subcommands can be told apart. -/
structure ToldApart (tool : Tool κ) : Prop where
  options : CommandLine.ToldApart tool.options
  subcommands : ∀ s ∈ tool.subcommands, CommandLine.ToldApart s.options
  words : tool.words.Nodup

end Tool

end PlotEmbedding.CommandLine
