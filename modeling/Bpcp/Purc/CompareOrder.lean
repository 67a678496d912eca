import Bpcp.Purc.Compare

/-!
# Comparison as an order

A tree is spelled as a word of tokens: a leaf by its type and value, a container by its
type, its keys and members, and a token that ends it and comes before all others. On trees
of plain data, `pcvar_compare_ex` is the lexicographic order of these words, and so it
never contradicts itself when operands are swapped or comparisons are chained.
-/

namespace Bpcp.Purc

open Bpcp.Lib

/-- A letter of the word that spells a tree. -/
structure Token where
  /-- Zero at the end of a container, one for a key, and from two on the type of a variant. -/
  rank : Int
  /-- The number of a leaf. -/
  number : Int
  /-- The key. -/
  key : CString
  /-- The text of a string. -/
  text : CString

/-- The empty string. -/
def noText : CString := .lit ""

/-- The end of a container. -/
def Token.stop : Token := ⟨0, 0, noText, noText⟩

/-- A key of an object. -/
def Token.ofKey (key : CString) : Token := ⟨1, 0, key, noText⟩

/-- The start of a variant of a type. -/
def Token.ofType (type : VariantType) : Token := ⟨2 + type.toInt, 0, noText, noText⟩

/-- A leaf of plain data. -/
def Token.ofScalar : Scalar → Token
  | .boolean b => { ofType .boolean with number := b.toInt }
  | .longint i64 => { ofType .longint with number := i64.toInt }
  | .ulongint u64 => { ofType .ulongint with number := u64.toNat }
  | .string value => { ofType .string with text := value.text }
  | value => ofType value.type

/-- Tokens are ordered by rank, number, key and text. -/
def Token.order (textCmp : CString → CString → Int) : Token → Token → Ordering :=
  compareLex (compareOn Token.rank) <| compareLex (compareOn Token.number) <|
    compareLex (fun l r => outcome (strcmp l.key r.key)) fun l r => outcome (textCmp l.text r.text)

mutual

/-- The word that spells a tree. -/
def word : Variant → List Token
  | .scalar _ value => [.ofScalar value]
  | .object _ kvs => .ofType .object :: wordOfEntries kvs
  | .linear _ kind members => .ofType kind.type :: wordOfMembers members

/-- The word of the entries of an object. -/
def wordOfEntries : List (CString × Variant) → List Token
  | [] => [.stop]
  | (key, value) :: rest => .ofKey key :: (word value ++ wordOfEntries rest)

/-- The word of the members of a linear container. -/
def wordOfMembers : List Variant → List Token
  | [] => [.stop]
  | member :: rest => word member ++ wordOfMembers rest

end

/-- Leaves of plain data. -/
def Scalar.isData : Scalar → Bool
  | undefined | null | boolean _ | longint _ | ulongint _ | string _ => true
  | _ => false

/-- Whether the variant is a container or a leaf of plain data. -/
def Variant.isData : Variant → Bool
  | scalar _ value => value.isData
  | _ => true

/-- A tree of plain data. -/
def Variant.DataTree (variant : Variant) : Prop := variant.All fun node => node.isData = true

/-- How `pcvar_compare_ex` compares texts. -/
def textCmp (rt : Runtime) (caseless : Bool) (l r : CString) : Int :=
  if caseless then rt.pcutilsStrcasecmp l r else strcmp l r

variable {rt : Runtime} {caseless : Bool} {cmp : CString → CString → Int}

/-- Both ways of comparing texts are consistent where the caseless one is. -/
theorem textCmp_consistent (folding : Consistent rt.pcutilsStrcasecmp) (caseless : Bool) :
    Consistent (textCmp rt caseless) := by
  cases caseless
  · exact strcmp_consistent
  · exact folding

/-- The order of tokens is consistent where that of the texts is. -/
theorem Token.order_consistent (consistent : Consistent cmp) : Std.TransCmp (Token.order cmp) := by
  have keys := Consistent.comap strcmp_consistent Token.key
  have texts := Consistent.comap consistent Token.text
  unfold Token.order
  infer_instance

/-! ## Words -/

/-- Words are compared from left to right. -/
def wordOrder (cmp : CString → CString → Int) : List Token → List Token → Ordering :=
  List.compareLex (Token.order cmp)

/-- The order of words is consistent where that of the texts is. -/
theorem wordOrder_consistent (consistent : Consistent cmp) : Std.TransCmp (wordOrder cmp) :=
  have := Token.order_consistent consistent
  inferInstanceAs (Std.TransCmp (List.compareLex (Token.order cmp)))

/-- The first tokens decide, then the rest of the words. -/
theorem wordOrder_cons (l r : Token) (restL restR : List Token) :
    wordOrder cmp (l :: restL) (r :: restR) =
      (compare l.rank r.rank).then ((compare l.number r.number).then
        ((outcome (strcmp l.key r.key)).then ((outcome (cmp l.text r.text)).then
          (wordOrder cmp restL restR)))) := by
  rw [wordOrder, List.compareLex_cons_cons]
  simp only [Token.order, compareLex, compareOn, Ordering.then_assoc]

/-- The rank of the first token decides. -/
theorem wordOrder_rank {l r : Token} (differ : l.rank ≠ r.rank) (restL restR : List Token) :
    wordOrder cmp (l :: restL) (r :: restR) = compare l.rank r.rank := by
  rw [wordOrder_cons]
  cases order : compare l.rank r.rank with
  | eq => exact absurd (compare_eq_iff_eq.1 order) differ
  | lt => rfl
  | gt => rfl

/-- A common beginning of two words does not count. -/
theorem wordOrder_append (consistent : Consistent cmp) (common restL restR : List Token) :
    wordOrder cmp (common ++ restL) (common ++ restR) = wordOrder cmp restL restR :=
  have := Token.order_consistent consistent
  compareLex_append common restL restR

/-- A first key decides by `strcmp`. -/
theorem wordOrder_key (consistent : Consistent cmp) (l r : CString) (restL restR : List Token) :
    wordOrder cmp (.ofKey l :: restL) (.ofKey r :: restR) =
      (outcome (strcmp l r)).then (wordOrder cmp restL restR) := by
  simp [wordOrder_cons, Token.ofKey, Consistent.self_eq_zero consistent noText]

/-- The end of a container comes before a token of any other rank. -/
theorem wordOrder_stop {token : Token} (later : 0 < token.rank) (restL restR : List Token) :
    wordOrder cmp (.stop :: restL) (token :: restR) = .lt ∧
      wordOrder cmp (token :: restL) (.stop :: restR) = .gt := by
  rw [wordOrder_rank later.ne, wordOrder_rank later.ne']
  exact ⟨compare_lt_iff_lt.2 later, compare_gt_iff_gt.2 later⟩

/-- A word begins with a token for the type of its variant. -/
theorem word_eq_cons (variant : Variant) :
    ∃ token rest, word variant = token :: rest ∧ token.rank = 2 + variant.type.toInt := by
  cases variant with
  | scalar addr value => cases value <;> exact ⟨_, [], rfl, rfl⟩
  | object addr kvs => exact ⟨_, _, rfl, rfl⟩
  | linear addr kind members => cases kind <;> exact ⟨_, _, rfl, rfl⟩

/-- No word begins with the end of a container. -/
theorem word_rank_pos {variant : Variant} {token : Token}
    (rank : token.rank = 2 + variant.type.toInt) : 0 < token.rank := by
  have nonneg : 0 ≤ variant.type.toInt := by
    cases variant.type <;> decide
  omega

/-- A comparison of `l` and `r` spells: its result and what follows decide the order of any
words that begin with the words of `l` and `r`. -/
def Spells (rt : Runtime) (caseless : Bool) (wordL wordR : List Token) (result : Option Int) :
    Prop :=
  ∃ diff, result = some diff ∧ ∀ restL restR,
    wordOrder (textCmp rt caseless) (wordL ++ restL) (wordR ++ restR) =
      (outcome diff).then (wordOrder (textCmp rt caseless) restL restR)

/-- Leaves of one type are compared as they are spelled. -/
theorem spells_scalar (folding : Consistent rt.pcutilsStrcasecmp) {l r : Scalar}
    (types : l.type = r.type) (data : l.isData = true) :
    Spells rt caseless [.ofScalar l] [.ofScalar r] (compareScalars rt caseless l r) := by
  have self := (textCmp_consistent folding caseless).self_eq_zero noText
  have keys := strcmp_consistent.self_eq_zero noText
  cases l <;> cases r <;> simp [Scalar.type] at types <;> simp [Scalar.isData] at data <;>
    refine ⟨_, rfl, fun restL restR => ?_⟩ <;>
    simp [-ite_eq_left_iff, wordOrder_cons, Token.ofScalar, Token.ofType, self, keys, outcome_sub,
      outcome_int64, outcome_uint64]
  rfl

/-- A common token is spelled alike. -/
theorem spells_common (folding : Consistent rt.pcutilsStrcasecmp) (token : Token) :
    Spells rt caseless [token] [token] (some 0) :=
  ⟨0, rfl, fun _ _ => wordOrder_append (textCmp_consistent folding caseless) [token] _ _⟩

/-- The container that ends first comes first. -/
theorem spells_shorter {token : Token} (later : 0 < token.rank) (rest : List Token) :
    Spells rt caseless [.stop] (token :: rest) (some (-1)) :=
  ⟨-1, rfl, fun _ _ => (wordOrder_stop later _ _).1⟩

/-- The container that goes on comes last. -/
theorem spells_longer {token : Token} (later : 0 < token.rank) (rest : List Token) :
    Spells rt caseless (token :: rest) [.stop] (some 1) :=
  ⟨1, rfl, fun _ _ => (wordOrder_stop later _ _).2⟩

/-- A comparison that goes on after a zero result spells the words one after the other. -/
theorem Spells.append {wordL wordR laterL laterR : List Token} {first second : Option Int}
    (begins : Spells rt caseless wordL wordR first)
    (goesOn : Spells rt caseless laterL laterR second) :
    Spells rt caseless (wordL ++ laterL) (wordR ++ laterR)
      (first.bind fun diff => if diff ≠ 0 then some diff else second) := by
  obtain ⟨diff, rfl, order⟩ := begins
  obtain ⟨later, rfl, order'⟩ := goesOn
  refine ⟨if diff ≠ 0 then diff else later, ?_, fun restL restR => ?_⟩
  · rw [Option.bind_some]
    split <;> rfl
  · rw [List.append_assoc, List.append_assoc, order, order', outcome_first, Ordering.then_assoc]

/-- Objects whose values are compared as their words are spelled are so themselves. -/
theorem spells_entries (folding : Consistent rt.pcutilsStrcasecmp)
    {kvsL kvsR : List (CString × Variant)}
    (values : ∀ l ∈ kvsL, ∀ r ∈ kvsR,
      Spells rt caseless (word l.2) (word r.2) (compareEx rt caseless false l.2 r.2)) :
    Spells rt caseless (wordOfEntries kvsL) (wordOfEntries kvsR)
      (cmpByObj rt caseless false kvsL kvsR) := by
  induction kvsL generalizing kvsR with
  | nil =>
    cases kvsR with
    | nil => exact spells_common folding .stop
    | cons r restR => exact spells_shorter (show (0 : Int) < 1 by decide) _
  | cons l restL ih =>
    cases kvsR with
    | nil => exact spells_longer (show (0 : Int) < 1 by decide) _
    | cons r restR =>
      have key : Spells rt caseless [.ofKey l.1] [.ofKey r.1] (some (strcmp l.1 r.1)) :=
        ⟨_, rfl, wordOrder_key (textCmp_consistent folding caseless) l.1 r.1⟩
      have value := values l (by simp) r (by simp)
      have rest := ih fun l' memberL r' memberR =>
        values l' (List.mem_cons_of_mem _ memberL) r' (List.mem_cons_of_mem _ memberR)
      rw [cmpByObj]
      exact key.append (value.append rest)

/-- Linear containers whose members are compared as their words are spelled are so themselves. -/
theorem spells_members (folding : Consistent rt.pcutilsStrcasecmp)
    {membersL membersR : List Variant}
    (members : ∀ l ∈ membersL, ∀ r ∈ membersR,
      Spells rt caseless (word l) (word r) (compareEx rt caseless false l r)) :
    Spells rt caseless (wordOfMembers membersL) (wordOfMembers membersR)
      (cmpMembers rt caseless false membersL membersR) := by
  induction membersL generalizing membersR with
  | nil =>
    cases membersR with
    | nil => exact spells_common folding .stop
    | cons r restR =>
      obtain ⟨token, rest, spelled, rank⟩ := word_eq_cons r
      rw [wordOfMembers, wordOfMembers, spelled]
      exact spells_shorter (word_rank_pos rank) _
  | cons l restL ih =>
    cases membersR with
    | nil =>
      obtain ⟨token, rest, spelled, rank⟩ := word_eq_cons l
      rw [wordOfMembers, wordOfMembers, spelled]
      exact spells_longer (word_rank_pos rank) _
    | cons r restR =>
      have member := members l (by simp) r (by simp)
      have rest := ih fun l' memberL r' memberR =>
        members l' (List.mem_cons_of_mem _ memberL) r' (List.mem_cons_of_mem _ memberR)
      rw [cmpMembers]
      exact member.append rest

/-- Where pointers are equal or types differ, the comparison spells the words. -/
theorem spells_step (folding : Consistent rt.pcutilsStrcasecmp) {memory : Nat → Variant}
    {l r : Variant} (livesL : l.LivesIn memory) (livesR : r.LivesIn memory)
    (step : l.addr ≠ r.addr → l.type = r.type →
      Spells rt caseless (word l) (word r) (compareEx rt caseless false l r)) :
    Spells rt caseless (word l) (word r) (compareEx rt caseless false l r) := by
  by_cases pointer : l.addr = r.addr
  · obtain rfl := livesL.same livesR pointer
    rw [compareEx_same rfl]
    exact ⟨0, rfl, wordOrder_append (textCmp_consistent folding caseless) _⟩
  by_cases types : l.type = r.type
  · exact step pointer types
  · obtain ⟨tokenL, tailL, spelledL, rankL⟩ := word_eq_cons l
    obtain ⟨tokenR, tailR, spelledR, rankR⟩ := word_eq_cons r
    have apart : l.type.toInt ≠ r.type.toInt := fun same => types (VariantType.toInt_inj.1 same)
    rw [compareEx_types pointer (by simp) types, spelledL, spelledR]
    refine ⟨_, rfl, fun restL restR => ?_⟩
    rw [List.cons_append, List.cons_append, wordOrder_rank (by omega), rankL, rankR,
      ← outcome_sub, add_sub_add_left_eq_sub]
    rcases lt_or_gt_of_ne apart with less | greater
    · rw [outcome_eq_lt.2 (by omega)]
      rfl
    · rw [outcome_eq_gt.2 (by omega)]
      rfl

/-- On plain data, comparing trees is comparing their words. -/
theorem spells_compareEx (folding : Consistent rt.pcutilsStrcasecmp) {memory : Nat → Variant}
    {l r : Variant} (livesL : l.LivesIn memory) (livesR : r.LivesIn memory)
    (data : l.DataTree) :
    Spells rt caseless (word l) (word r) (compareEx rt caseless false l r) := by
  induction l generalizing r with
  | scalar addrL vl =>
    refine spells_step folding livesL livesR fun pointer types => ?_
    obtain ⟨addrR, vr, rfl, scalars⟩ := Variant.of_type_scalar types
    rw [compareEx_scalars (show addrL ≠ addrR from pointer) (by simp) scalars]
    exact spells_scalar folding scalars (Variant.all_scalar.1 data)
  | object addrL kvsL ih =>
    refine spells_step folding livesL livesR fun pointer types => ?_
    obtain ⟨addrR, kvsR, rfl⟩ := Variant.of_type_object types
    rw [compareEx_objects (show addrL ≠ addrR from pointer)]
    have entries := spells_entries folding fun l insideL r insideR =>
      ih l insideL ((Variant.all_object.1 livesL).2 l insideL)
        ((Variant.all_object.1 livesR).2 r insideR) ((Variant.all_object.1 data).2 l insideL)
    exact (spells_common folding (.ofType .object)).append entries
  | linear addrL kind membersL ih =>
    refine spells_step folding livesL livesR fun pointer types => ?_
    obtain ⟨addrR, membersR, rfl⟩ := Variant.of_type_linear types
    rw [compareEx_linears (show addrL ≠ addrR from pointer)]
    have members := spells_members folding fun l insideL r insideR =>
      ih l insideL ((Variant.all_linear.1 livesL).2 l insideL)
        ((Variant.all_linear.1 livesR).2 r insideR) ((Variant.all_linear.1 data).2 l insideL)
    exact (spells_common folding (.ofType kind.type)).append members

/-- The sign of a comparison is the order of the words. -/
theorem compare_words (folding : Consistent rt.pcutilsStrcasecmp) (caseless : Bool)
    {memory : Nat → Variant} {l r : Variant} (livesL : l.LivesIn memory)
    (livesR : r.LivesIn memory) (data : l.DataTree) :
    ∃ diff, pcvarCompareEx rt caseless false (some l) (some r) = some diff ∧
      outcome diff = wordOrder (textCmp rt caseless) (word l) (word r) := by
  have spelled : Spells rt caseless _ _ _ := spells_compareEx folding livesL livesR data
  obtain ⟨diff, compared, order⟩ := spelled
  refine ⟨diff, compared, ?_⟩
  have whole := order [] []
  rw [List.append_nil, List.append_nil] at whole
  rw [whole, wordOrder, List.compareLex_nil_nil, Ordering.then_eq]

/-- For both ways of comparing strings, `pcvar_compare_ex` is a total preorder on the trees of
plain data of a memory: swapping the operands negates the sign of its result, and its
results are transitive. -/
theorem compare_preorder (rt : Runtime) (folding : Consistent rt.pcutilsStrcasecmp)
    (caseless : Bool) (memory : Nat → Variant)
    (a b c : {variant : Variant // variant.LivesIn memory ∧ variant.DataTree}) :
    ∃ ab ba bc ac : Int,
      pcvarCompareEx rt caseless false (some a.1) (some b.1) = some ab ∧
      pcvarCompareEx rt caseless false (some b.1) (some a.1) = some ba ∧
      pcvarCompareEx rt caseless false (some b.1) (some c.1) = some bc ∧
      pcvarCompareEx rt caseless false (some a.1) (some c.1) = some ac ∧
      ab.sign = -ba.sign ∧ (ab ≤ 0 → bc ≤ 0 → ac ≤ 0) := by
  have := wordOrder_consistent (textCmp_consistent folding caseless)
  obtain ⟨ab, runAB, orderAB⟩ := compare_words folding caseless a.2.1 b.2.1 a.2.2
  obtain ⟨ba, runBA, orderBA⟩ := compare_words folding caseless b.2.1 a.2.1 b.2.2
  obtain ⟨bc, runBC, orderBC⟩ := compare_words folding caseless b.2.1 c.2.1 b.2.2
  obtain ⟨ac, runAC, orderAC⟩ := compare_words folding caseless a.2.1 c.2.1 a.2.2
  refine ⟨ab, ba, bc, ac, runAB, runBA, runBC, runAC, outcome_swap.1 ?_, ?_⟩
  · rw [orderAB, orderBA]
    exact Std.OrientedCmp.eq_swap
  · simp only [← outcome_isLE, orderAB, orderBC, orderAC]
    exact Std.TransCmp.isLE_trans

/-- A memory with a string, an array that holds it, and nulls. -/
def sampleMemory : Nat → Variant
  | 1 => .scalar 1 (.string (.ofText (.lit "Key") (by decide)))
  | 2 => .linear 2 .array [.scalar 1 (.string (.ofText (.lit "Key") (by decide)))]
  | addr => .scalar addr .null

/-- The preorder on a string, an array that holds it, and a null in the C locale. -/
theorem compare_preorder_plain :
    ∃ ab ba bc ac : Int,
      pcvarCompareEx .plain true false (some (sampleMemory 1)) (some (sampleMemory 2)) = some ab ∧
      pcvarCompareEx .plain true false (some (sampleMemory 2)) (some (sampleMemory 1)) = some ba ∧
      pcvarCompareEx .plain true false (some (sampleMemory 2)) (some (sampleMemory 3)) = some bc ∧
      pcvarCompareEx .plain true false (some (sampleMemory 1)) (some (sampleMemory 3)) = some ac ∧
      ab.sign = -ba.sign ∧ (ab ≤ 0 → bc ≤ 0 → ac ≤ 0) :=
  compare_preorder .plain Runtime.plain_strcasecmp_consistent true sampleMemory
    ⟨sampleMemory 1, by simp [Variant.LivesIn, Variant.DataTree, sampleMemory, Variant.addr,
      Variant.isData, Scalar.isData]⟩
    ⟨sampleMemory 2, by simp [Variant.LivesIn, Variant.DataTree, sampleMemory, Variant.addr,
      Variant.isData, Scalar.isData]⟩
    ⟨sampleMemory 3, by simp [Variant.LivesIn, Variant.DataTree, sampleMemory, Variant.addr,
      Variant.isData, Scalar.isData]⟩

end Bpcp.Purc
