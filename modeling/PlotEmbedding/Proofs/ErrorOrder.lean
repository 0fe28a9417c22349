import PlotEmbedding.Proofs.Text.ByteOrder
import PlotEmbedding.Proofs.Wording

/-!
# The order of errors

Errors are compared by their kind, by the bytes of the text that they carry and by the number that
they carry, in this order. The comparison is put together from three linear orders, so it is linear,
and the three keys tell one error from another, so it is consistent with equality.
`EmbedError.linearly_ordered` says this, and that `EmbedError.Precedes` is the order. Sorting is
canonical for a linear order, and as no two errors are worded alike the wordings of the sorted
errors are enough to tell which errors there are.
-/

namespace PlotEmbedding

open Text

namespace EmbedError

/-- An error comes before another one: kinds in the order in which they are listed, and errors of
one kind by what they carry. -/
inductive Precedes : EmbedError → EmbedError → Prop where
  /-- The kind comes before the other one. -/
  | kind {a b : EmbedError} : a.ctorIdx < b.ctorIdx → Precedes a b
  /-- The reason comes before the other one. -/
  | hookRegistration {s t : String} : bytes s < bytes t →
      Precedes (.hookRegistration s) (.hookRegistration t)
  /-- The reason comes before the other one. -/
  | hookRemoval {s t : String} : bytes s < bytes t → Precedes (.hookRemoval s) (.hookRemoval t)
  /-- The handle is less than the other one. -/
  | invalidHostWindow {h k : Int64} : h < k →
      Precedes (.invalidHostWindow h) (.invalidHostWindow k)
  /-- The query comes before the other one. -/
  | windowQuery {s t : String} : bytes s < bytes t → Precedes (.windowQuery s) (.windowQuery t)

/-! ## Three keys -/

/-- The bytes of the text that an error carries. -/
def carriedBytes : EmbedError → List UInt8
  | hookRegistration reason => bytes reason
  | hookRemoval reason => bytes reason
  | windowQuery query => bytes query
  | _ => []

/-- The number that an error carries. -/
def carriedNumber : EmbedError → Int
  | invalidHostWindow handle => handle.toInt
  | _ => 0

/-- Errors are compared by three keys, one after the other. -/
theorem compare_eq : EmbedError.compare =
    compareLex (compareOn rank)
      (compareLex (compareOn carriedBytes) (compareOn carriedNumber)) := by
  funext a b
  -- Errors of two kinds differ in the first key, and those of one kind in one of the others only.
  cases a with
  | hookRegistration s =>
    cases b with
    | hookRegistration t => exact Ordering.then_eq.symm
    | _ => rfl
  | hookRemoval s =>
    cases b with
    | hookRemoval t => exact Ordering.then_eq.symm
    | _ => rfl
  | invalidHostWindow h => cases b <;> rfl
  | windowQuery s =>
    cases b with
    | windowQuery t => exact Ordering.then_eq.symm
    | _ => rfl
  | unsupported => cases b <;> rfl

instance : Std.TransCmp EmbedError.compare := by
  rw [compare_eq]
  infer_instance

/-- The three keys are enough to tell an error. -/
theorem eq_of_keys {a b : EmbedError} (ranks : a.rank = b.rank)
    (texts : a.carriedBytes = b.carriedBytes) (numbers : a.carriedNumber = b.carriedNumber) :
    a = b := by
  -- The first key tells the kind, and each kind carries one thing, which another key tells.
  cases a with
  | hookRegistration s =>
    cases b with
    | hookRegistration t => rw [bytes_injective texts]
    | _ => exact nomatch ranks
  | hookRemoval s =>
    cases b with
    | hookRemoval t => rw [bytes_injective texts]
    | _ => exact nomatch ranks
  | invalidHostWindow h =>
    cases b with
    | invalidHostWindow k => rw [Int64.toInt_inj.mp numbers]
    | _ => exact nomatch ranks
  | windowQuery s =>
    cases b with
    | windowQuery t => rw [bytes_injective texts]
    | _ => exact nomatch ranks
  | unsupported =>
    cases b with
    | unsupported => rfl
    | _ => exact nomatch ranks

instance : Std.LawfulEqCmp EmbedError.compare where
  eq_of_compare {a b} same := by
    rw [compare_eq, compareLex_eq_eq, compareLex_eq_eq] at same
    obtain ⟨ranks, texts, numbers⟩ := same
    exact eq_of_keys (Std.LawfulEqOrd.eq_of_compare ranks) (Std.LawfulEqOrd.eq_of_compare texts)
      (Std.LawfulEqOrd.eq_of_compare numbers)

/-! ## What comes first -/

/-- Kinds are ranked as they are listed. -/
theorem rank_eq (a : EmbedError) : a.rank = a.ctorIdx := by
  cases a <;> rfl

/-- An error of an earlier kind comes first. -/
theorem compare_of_rank_lt {a b : EmbedError} (lt : a.rank < b.rank) : a.compare b = .lt := by
  rw [compare_eq]
  exact Ordering.then_eq_lt.mpr (.inl (Nat.compare_eq_lt.mpr lt))

/-- What is less in the comparison precedes, and nothing else does. -/
theorem compare_eq_lt_iff {a b : EmbedError} : a.compare b = .lt ↔ Precedes a b := by
  constructor
  · intro less
    -- Of two kinds, the comparison looks at nothing but the rank.
    cases a with
    | hookRegistration s =>
      cases b with
      | hookRegistration t => exact .hookRegistration (compareBytes_eq_lt_iff.mp less)
      | _ => exact .kind (Nat.compare_eq_lt.mp less)
    | hookRemoval s =>
      cases b with
      | hookRemoval t => exact .hookRemoval (compareBytes_eq_lt_iff.mp less)
      | _ => exact .kind (Nat.compare_eq_lt.mp less)
    | invalidHostWindow h =>
      cases b with
      | invalidHostWindow k =>
        exact .invalidHostWindow (Int64.lt_iff_toInt_lt.mpr (Std.compare_eq_lt.mp less))
      | _ => exact .kind (Nat.compare_eq_lt.mp less)
    | windowQuery s =>
      cases b with
      | windowQuery t => exact .windowQuery (compareBytes_eq_lt_iff.mp less)
      | _ => exact .kind (Nat.compare_eq_lt.mp less)
    | unsupported => cases b <;> exact .kind (Nat.compare_eq_lt.mp less)
  · intro precedes
    cases precedes with
    | kind lt =>
      rw [← rank_eq, ← rank_eq] at lt
      exact compare_of_rank_lt lt
    | hookRegistration lt => exact compareBytes_eq_lt_iff.mpr lt
    | hookRemoval lt => exact compareBytes_eq_lt_iff.mpr lt
    | invalidHostWindow lt => exact Std.compare_eq_lt.mpr (Int64.lt_iff_toInt_lt.mp lt)
    | windowQuery lt => exact compareBytes_eq_lt_iff.mpr lt

/-- What is greater in the comparison is preceded. -/
theorem compare_eq_gt_iff {a b : EmbedError} : a.compare b = .gt ↔ Precedes b a := by
  rw [Std.OrientedCmp.gt_iff_lt, compare_eq_lt_iff]

/-- To precede is transitive. -/
theorem Precedes.trans {a b c : EmbedError} (ab : Precedes a b) (bc : Precedes b c) :
    Precedes a c := by
  rw [← compare_eq_lt_iff] at ab bc ⊢
  exact Std.TransCmp.lt_trans ab bc

/-! ## Sorting -/

/-- Sorting rearranges the errors. -/
theorem sort_perm (errors : List EmbedError) : (sort errors).Perm errors :=
  List.mergeSort_perm _ _

/-- Of two errors in a sorted list the first one is not greater. -/
theorem pairwise_sort (errors : List EmbedError) :
    (sort errors).Pairwise fun a b => (a.compare b).isLE = true := by
  apply List.pairwise_mergeSort
  · intro a b c ab bc
    exact Std.TransCmp.isLE_trans ab bc
  · intro a b
    have swapped : b.compare a = (a.compare b).swap := Std.OrientedCmp.eq_swap
    rw [swapped]
    cases a.compare b <;> rfl

/-- No error in a sorted list is preceded by a later one. -/
theorem pairwise_sort_not_precedes (errors : List EmbedError) :
    (sort errors).Pairwise fun a b => ¬ Precedes b a := by
  refine (pairwise_sort errors).imp fun {a b} le before => ?_
  rw [← compare_eq_gt_iff] at before
  rw [before] at le
  cases le

/-- Lists are sorted into the same list if and only if they are permutations of each other. -/
theorem sort_eq_iff {xs ys : List EmbedError} : sort xs = sort ys ↔ xs.Perm ys := by
  constructor
  · intro same
    exact (sort_perm xs).symm.trans (same ▸ sort_perm ys)
  · intro perm
    refine List.Perm.eq_of_pairwise ?_ (pairwise_sort xs) (pairwise_sort ys)
      ((sort_perm xs).trans (perm.trans (sort_perm ys).symm))
    intro a b _ _ ab ba
    exact Std.LawfulEqCmp.eq_of_compare (Std.OrientedCmp.isLE_antisymm ab ba)

/-- The wordings of the sorted errors tell which errors there are, and how often each. -/
theorem map_message_sort_eq_iff {xs ys : List EmbedError} :
    (sort xs).map message = (sort ys).map message ↔ xs.Perm ys := by
  rw [List.map_inj_right fun _ _ same => message_injective same, sort_eq_iff]

/-- The comparison of errors is a linear order: it is equality where neither precedes the other, it
turns round with the two errors, and to precede is transitive. Texts are in the order of their
bytes, which is that of their code points. The sorted errors have the same wordings for two lists if
and only if the lists are permutations of each other. -/
theorem linearly_ordered :
    (∀ a b : EmbedError, (a.compare b = .lt ↔ Precedes a b) ∧ (a.compare b = .eq ↔ a = b) ∧
      (a.compare b = .gt ↔ Precedes b a) ∧ b.compare a = (a.compare b).swap) ∧
    (∀ a b c : EmbedError, Precedes a b → Precedes b c → Precedes a c) ∧
    (∀ s t : String, compareBytes s t = Ord.compare (codePoints s) (codePoints t) ∧
      (bytes s < bytes t ↔ codePoints s < codePoints t)) ∧
    (∀ errors, (sort errors).Perm errors ∧ (sort errors).Pairwise fun a b => ¬ Precedes b a) ∧
    ∀ xs ys, (sort xs).map message = (sort ys).map message ↔ xs.Perm ys := by
  refine ⟨fun a b => ?_, fun a b c => Precedes.trans, fun s t => ?_, fun errors => ?_,
    fun xs ys => map_message_sort_eq_iff⟩
  · exact ⟨compare_eq_lt_iff, Std.LawfulEqCmp.compare_eq_iff_eq, compare_eq_gt_iff,
      Std.OrientedCmp.eq_swap⟩
  · exact ⟨compareBytes_eq s t, bytes_lt_iff⟩
  · exact ⟨sort_perm errors, pairwise_sort_not_precedes errors⟩

/-- The letter with an accent lies beyond ASCII and comes last, but before errors of later kinds. -/
theorem linearly_ordered_of_accent :
    Precedes (.hookRegistration "z") (.hookRegistration "é") ∧
    Precedes (.hookRegistration "é") .unsupported ∧
    Precedes (.hookRegistration "z") .unsupported := by
  obtain ⟨compared, trans, -⟩ := linearly_ordered
  have letters : Precedes (.hookRegistration "z") (.hookRegistration "é") :=
    (compared _ _).1.mp (by decide)
  have kinds : Precedes (.hookRegistration "é") .unsupported := (compared _ _).1.mp (by decide)
  exact ⟨letters, kinds, trans _ _ _ letters kinds⟩

end EmbedError

end PlotEmbedding
