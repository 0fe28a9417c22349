import PlotEmbedding.CommandLine.Reading

/-!
# Taking in items

What has been read for a command is changed by one item after the other. A setting whose value came
as a word of its own is not taken in before the next item, so `Matches.due` says what is still to
come, and `Matches.Takes` what it is to take in items with it. Each operation on what has been read
takes in the items that its words spell, and goes wrong just when the command does not admit them.
-/

namespace PlotEmbedding.CommandLine

/-- The second of two steps is taken where the first one ended. -/
theorem bind_eq_ok_iff {α β : Type} {x : Except Stop α} {f : α → Except Stop β} {b : β} :
    x >>= f = .ok b ↔ ∃ a, x = .ok a ∧ f a = .ok b := by
  cases x <;> simp [bind, Except.bind]

section Items

variable (items later : List Item) (name text : String) (value : Option String)

/-- The names of items in a row. -/
theorem names_append : names (items ++ later) = names items ++ names later :=
  List.filterMap_append

/-- The texts of items in a row. -/
theorem texts_append : texts (items ++ later) = texts items ++ texts later :=
  List.filterMap_append

/-- An option adds its name to the names. -/
theorem names_concat_option : names (items ++ [.option name value]) = names items ++ [name] :=
  names_append items _

/-- An argument has no name. -/
theorem names_concat_argument : names (items ++ [.argument text]) = names items :=
  (names_append items _).trans (List.append_nil _)

/-- An option is no argument. -/
theorem texts_concat_option : texts (items ++ [.option name value]) = texts items :=
  (texts_append items _).trans (List.append_nil _)

/-- An argument adds its text to the texts. -/
theorem texts_concat_argument : texts (items ++ [.argument text]) = texts items ++ [text] :=
  texts_append items _

end Items

/-- The items may be the first of those that a command with this argument takes. -/
structure Admits (argument : Option Argument) (items : List Item) : Prop where
  distinct : (names items).Nodup
  few : (texts items).length ≤ argument.toList.length

section Admits

variable {argument : Option Argument} {items later : List Item} {name text : String}
  {value : Option String}

/-- Before anything is taken in, nothing is wrong. -/
theorem admits_nil : Admits argument [] where
  distinct := List.nodup_nil
  few := Nat.zero_le _

/-- What is admitted is so from the start. -/
theorem Admits.of_append (admits : Admits argument (items ++ later)) : Admits argument items where
  distinct := by
    have distinct := admits.distinct
    -- Both conditions are inherited by the front of a list.
    rw [names_append, List.nodup_append] at distinct
    exact distinct.1
  few := by
    have few := admits.few
    rw [texts_append, List.length_append] at few
    omega

/-- One more option is admitted if there was none of this name. -/
theorem admits_append_option (admits : Admits argument items) :
    Admits argument (items ++ [.option name value]) ↔ name ∉ names items := by
  constructor
  · intro both given
    have distinct := both.distinct
    rw [names_concat_option, List.nodup_append] at distinct
    exact distinct.2.2 name given name List.mem_cons_self rfl
  · intro fresh
    constructor
    · rw [names_concat_option, List.nodup_append]
      refine ⟨admits.distinct, by simp, fun other given _ mem eq => fresh ?_⟩
      obtain rfl : _ = name := List.mem_singleton.mp mem
      exact eq ▸ given
    · rw [texts_concat_option]
      exact admits.few

/-- One more argument is admitted if the command has one and has not got it. -/
theorem admits_append_argument (admits : Admits argument items) :
    Admits argument (items ++ [.argument text]) ↔ argument.isSome ∧ texts items = [] := by
  constructor
  · intro both
    have few := both.few
    rw [texts_concat_argument, List.length_append] at few
    cases argument with
    | none => cases few
    | some a =>
      -- A command has one argument at most, so this one leaves no room for others.
      have none_left : (texts items).length ≤ 0 := Nat.le_of_succ_le_succ few
      exact ⟨rfl, List.eq_nil_of_length_eq_zero (Nat.le_zero.mp none_left)⟩
  · rintro ⟨there, vacant⟩
    obtain ⟨a, rfl⟩ := Option.isSome_iff_exists.mp there
    constructor
    · rw [names_concat_argument]
      exact admits.distinct
    · rw [texts_concat_argument, vacant]
      exact Nat.le_refl 1

/-- A command takes what it admits with all of its arguments. -/
theorem fits_iff : Fits argument items ↔
    Admits argument items ∧ (texts items).length = argument.toList.length :=
  ⟨fun fits => ⟨⟨fits.distinct, Nat.le_of_eq fits.complete⟩, fits.complete⟩,
    fun ⟨admits, complete⟩ => ⟨admits.distinct, complete⟩⟩

end Admits

namespace Matches

/-- What is to be taken in before the next item. While a setting waits for its value nothing can
be. -/
def due (m : Matches) : Option (List Item) :=
  match m.pending with
  | none => some []
  | some (_, none) => none
  | some (setting, some value) => some [.option setting.name (some value)]

/-- From `m`, the items are taken in behind what is due, and `n` is what has been read then. -/
def Takes (argument : Option Argument) (m : Matches) (items : List Item) (n : Matches) : Prop :=
  ∃ due, m.due = some due ∧ Admits argument (m.items ++ due ++ items) ∧
    n = { items := m.items ++ due ++ items }

variable {argument : Option Argument} {m n : Matches} {items later : List Item} {switch : Switch}
  {word : String}

/-- What has been taken in is admitted. -/
theorem Takes.admits (takes : m.Takes argument items n) : Admits argument n.items := by
  obtain ⟨due, -, admits, rfl⟩ := takes
  exact admits

/-- Nothing is due once items have been taken in. -/
theorem Takes.idle (takes : m.Takes argument items n) : n.pending = none := by
  obtain ⟨due, -, -, rfl⟩ := takes
  rfl

/-- No setting waits for its value once items have been taken in. -/
theorem Takes.ready (takes : m.Takes argument items n) : n.due ≠ none := by
  rw [due, takes.idle]
  exact Option.some_ne_none []

/-- Nothing is taken in while a setting waits for its value. -/
theorem Takes.due_ne_none (takes : m.Takes argument items n) : m.due ≠ none := by
  obtain ⟨due, eq, -⟩ := takes
  rw [eq]
  exact nofun

/-- If nothing is due, just the items are taken in. -/
theorem takes_iff_of_idle (idle : m.pending = none) : m.Takes argument items n ↔
    Admits argument (m.items ++ items) ∧ n = { items := m.items ++ items } := by
  have due : m.due = some [] := by rw [Matches.due, idle]
  constructor
  · rintro ⟨_, eq, admits, rfl⟩
    obtain rfl : [] = _ := Option.some.inj (due.symm.trans eq)
    rw [List.append_nil] at admits ⊢
    exact ⟨admits, rfl⟩
  · rintro ⟨admits, rfl⟩
    exact ⟨[], due, by rwa [List.append_nil], by rw [List.append_nil]⟩

/-- Items may be taken in one part after the other. -/
theorem takes_append_iff : m.Takes argument (items ++ later) n ↔
    ∃ k, m.Takes argument items k ∧ k.Takes argument later n := by
  constructor
  · -- What is due goes with the first part, and nothing is due for the second.
    rintro ⟨due, eq, admits, rfl⟩
    rw [← List.append_assoc] at admits ⊢
    exact ⟨_, ⟨due, eq, admits.of_append, rfl⟩, (takes_iff_of_idle rfl).mpr ⟨admits, rfl⟩⟩
  · rintro ⟨k, ⟨due, eq, -, rfl⟩, takes⟩
    obtain ⟨admits, rfl⟩ := (takes_iff_of_idle rfl).mp takes
    rw [List.append_assoc] at admits
    exact ⟨due, eq, admits, by rw [List.append_assoc]⟩

/-- The first item is taken in first. -/
theorem takes_cons_iff {item : Item} : m.Takes argument (item :: items) n ↔
    ∃ k, m.Takes argument [item] k ∧ k.Takes argument items n := by
  rw [← takes_append_iff, List.singleton_append]

/-! ## Options -/

/-- An option is taken in unless it was before. -/
theorem take_eq_ok_iff (admits : Admits argument m.items) (option : Opt) (value : Option String) :
    m.take option value = .ok n ↔ Admits argument (m.items ++ [.option option.name value]) ∧
      n = { m with items := m.items ++ [.option option.name value] } := by
  rw [admits_append_option admits, take]
  split
  · next given => exact ⟨nofun, fun h => absurd given h.1⟩
  · next fresh => rw [Except.ok.injEq, and_iff_right fresh, eq_comm]

/-- To settle is to take in what is due. -/
theorem settle_eq_ok_iff (admits : Admits argument m.items) :
    m.settle = .ok n ↔ m.Takes argument [] n := by
  obtain ⟨items, pending⟩ := m
  rcases pending with _ | ⟨setting, _ | value⟩
  · rw [takes_iff_of_idle rfl, List.append_nil, and_iff_right admits]
    show Except.ok _ = Except.ok n ↔ _
    rw [Except.ok.injEq, eq_comm]
  · exact ⟨nofun, fun takes => absurd rfl takes.due_ne_none⟩
  · -- The value has come, and the setting is taken in like any other option.
    have alone : Takes argument ⟨items, some (setting, some value)⟩ [] n ↔
        Admits argument (items ++ [.option setting.name (some value)]) ∧
          n = { items := items ++ [.option setting.name (some value)] } := by
      simp [Takes, due]
    rw [alone]
    exact take_eq_ok_iff (m := { items }) admits (.setting setting) (some value)

/-- An option is taken in behind what is due. -/
theorem settle_bind_take_eq_ok_iff (admits : Admits argument m.items) (option : Opt)
    (value : Option String) : (do let k ← m.settle; k.take option value) = .ok n ↔
      m.Takes argument [.option option.name value] n := by
  rw [← List.nil_append [_], takes_append_iff, bind_eq_ok_iff]
  refine exists_congr fun k => ?_
  rw [settle_eq_ok_iff admits]
  refine and_congr_right fun settled => ?_
  rw [take_eq_ok_iff settled.admits, takes_iff_of_idle settled.idle]
  obtain ⟨due, -, -, rfl⟩ := settled
  rfl

/-- A switch is taken in if all it does is to be remembered. -/
theorem takeSwitch_eq_ok_iff (admits : Admits argument m.items) :
    m.takeSwitch switch = .ok n ↔
      switch.effect = .mark ∧ m.Takes argument [.option switch.name none] n := by
  rw [show m.Takes argument [.option switch.name none] n ↔ _ from
    (settle_bind_take_eq_ok_iff admits (.switch switch) none).symm, takeSwitch]
  cases switch.effect with
  | mark => exact (and_iff_right rfl).symm
  | help | version =>
    -- These two stop the reading once what is due has been taken in.
    refine ⟨fun taken => ?_, nofun⟩
    obtain ⟨_, -, stopped⟩ := bind_eq_ok_iff.mp taken
    cases stopped

/-- What is due is no argument. -/
theorem Takes.texts_eq (settled : m.Takes argument [] n) : texts n.items = texts m.items := by
  obtain ⟨items, pending⟩ := m
  obtain ⟨_, eq, -, rfl⟩ := settled
  rw [List.append_nil]
  -- The value of a setting is no argument, and nothing else can be due.
  rcases pending with _ | ⟨setting, _ | value⟩
  · cases eq
    rw [List.append_nil]
  · cases eq
  · cases eq
    exact texts_concat_option items _ _

/-- An argument is taken in if the command has one and has not got it. -/
theorem takeArgument_eq_ok_iff (admits : Admits argument m.items) :
    m.takeArgument argument word = .ok n ↔ m.Takes argument [.argument word] n := by
  rw [← List.nil_append [_], takes_append_iff]
  constructor
  · intro taken
    unfold takeArgument at taken
    split at taken
    · -- The argument is looked for before what is due is settled, which adds no argument.
      next vacant =>
      obtain ⟨k, settled, ⟨⟩⟩ := bind_eq_ok_iff.mp taken
      have settled := (settle_eq_ok_iff admits).mp settled
      refine ⟨k, settled, (takes_iff_of_idle settled.idle).mpr ⟨?_, ?_⟩⟩
      · exact (admits_append_argument settled.admits).mpr ⟨rfl, settled.texts_eq.trans vacant⟩
      · rw [settled.idle]
    · cases taken
  · rintro ⟨k, settled, takes⟩
    obtain ⟨more, rfl⟩ := (takes_iff_of_idle settled.idle).mp takes
    obtain ⟨there, vacant⟩ := (admits_append_argument settled.admits).mp more
    obtain ⟨a, rfl⟩ := Option.isSome_iff_exists.mp there
    unfold takeArgument
    rw [show texts m.items = [] from settled.texts_eq ▸ vacant]
    refine bind_eq_ok_iff.mpr ⟨k, (settle_eq_ok_iff admits).mpr settled, ?_⟩
    rw [settled.idle]

end Matches

end PlotEmbedding.CommandLine
