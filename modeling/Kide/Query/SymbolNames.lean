import Kide.Lib.Like
import Kide.Lib.Text
import Kide.Query.Resolver
import Kide.Query.StoredSymbols

/-!
# Names that contain a text

`symbols_matching_name` (`store.rs`): the rows whose name in small letters is `LIKE` the text in small letters between two
percent signs. `LIKE` reads a percent sign in the text as any run and an underscore as any character, reads both sides up
to their first NUL, and fails on a pattern over its limit; a backslash is a character like any other.

`symbolsMatchingName_exact_iff`: what that means for one store, and the texts that every store answers exactly.
-/

namespace Kide
open Wildcards Checks Text Tables

/-! ## Small letters -/

theorem toLower_cases (c : Char) : c.toLower = c ∨ (65 ≤ c.toNat ∧ c.toNat ≤ 90 ∧ c.toLower.toNat = c.toNat + 32) := by
  unfold Char.toLower
  split
  · next h =>
    obtain ⟨hlow, hhigh⟩ := h
    have hlow' : 65 ≤ c.val.toNat := hlow
    have hhigh' : c.val.toNat ≤ 90 := hhigh
    refine .inr ⟨hlow', hhigh', ?_⟩
    show (c.val + 32).toNat = c.val.toNat + 32
    rw [UInt32.toNat_add]
    show (c.val.toNat + 32) % 2 ^ 32 = c.val.toNat + 32
    omega
  · exact .inl rfl

theorem toLower_of_toNat {c : Char} (h : c.toNat < 65 ∨ 90 < c.toNat) : c.toLower = c := by
  rcases toLower_cases c with hsame | ⟨hlow, hhigh, -⟩
  · exact hsame
  · omega

theorem toLower_toLower (c : Char) : c.toLower.toLower = c.toLower := by
  rcases toLower_cases c with hsame | ⟨hlow, hhigh, hlower⟩
  · rw [hsame, hsame]
  · exact toLower_of_toNat (by omega)

/-- Only the character itself becomes a character that is no letter. -/
theorem toLower_eq_iff {c d : Char} (h : d.toNat < 65 ∨ (90 < d.toNat ∧ d.toNat < 97)) : c.toLower = d ↔ c = d := by
  constructor
  · rintro rfl
    rcases toLower_cases c with hsame | ⟨hlow, hhigh, hlower⟩
    · exact hsame.symm
    · omega
  · rintro rfl
    exact toLower_of_toNat (by omega)

theorem utf8Size_of_ascii {c : Char} (h : c.toNat < 128) : c.utf8Size = 1 := by
  have hval : c.val.toNat ≤ 127 := Nat.le_of_lt_succ h
  exact if_pos hval

theorem utf8Size_toLower (c : Char) : c.toLower.utf8Size = c.utf8Size := by
  rcases toLower_cases c with hsame | ⟨hlow, hhigh, hlower⟩
  · rw [hsame]
  · rw [utf8Size_of_ascii (by omega), utf8Size_of_ascii (by omega)]

/-- `lower(text)`, which changes ASCII letters only. -/
def lowered (text : String) : List Char := text.toList.map Char.toLower

theorem byteLength_lowered (text : String) : byteLength (lowered text) = byteLength text.toList := by
  rw [byteLength, byteLength, lowered, List.map_map]
  exact congrArg List.sum (List.map_congr_left fun c _ => utf8Size_toLower c)

theorem mem_lowered_iff {text : String} {d : Char} (h : d.toNat < 65 ∨ (90 < d.toNat ∧ d.toNat < 97)) :
    d ∈ lowered text ↔ d ∈ text.toList := by
  rw [lowered, List.mem_map]
  exact ⟨fun ⟨c, hc, hd⟩ => (toLower_eq_iff h).1 hd ▸ hc, fun hd => ⟨d, hd, (toLower_eq_iff h).2 rfl⟩⟩

/-! ## LIKE -/

def LIKE_PATTERN_LIMIT : Nat := 50000

def NUL : Char := Char.ofNat 0

inductive LikeError where
  | patternTooComplex
deriving DecidableEq, Repr

/-- What a function over C strings reads. -/
def untilNul (text : List Char) : List Char := text.takeWhile (· ≠ NUL)

def likeAtom (c : Char) : Atom Char := if c = '%' then .run else if c = '_' then .one else .literal c

/-- `text LIKE pattern`, without `ESCAPE` -/
def like (pattern text : List Char) : Except LikeError Bool :=
  if LIKE_PATTERN_LIMIT < byteLength pattern then .error .patternTooComplex
  else .ok (wildcardMatch ((untilNul pattern).map fun c => likeAtom c.toLower) ((untilNul text).map Char.toLower))

/-- `'%' || lower(query) || '%'` -/
def namePattern (query : String) : List Char := '%' :: lowered query ++ ['%']

def IndexStore.symbolsMatchingName (store : IndexStore) (query : String) : Except LikeError (List SymbolRecord) := do
  let rows ← store.symbols.filterM fun row => like (namePattern query) (lowered row.name)
  .ok ((orderSymbols rows).filterMap store.joinSymbol)

/-! ## The answer -/

def ContainsIgnoringCase (name query : String) : Prop := lowered query <:+: lowered name

instance (name query : String) : Decidable (ContainsIgnoringCase name query) := inferInstanceAs (Decidable (_ <:+: _))

/-- The name fits the query where a percent sign stands for any run and an underscore for any character. -/
def FitsPattern (name query : String) : Prop :=
  wildcardMatch ((untilNul (namePattern query)).map likeAtom) (untilNul (lowered name)) = true

instance (name query : String) : Decidable (FitsPattern name query) := inferInstanceAs (Decidable (_ = true))

/-- The query answers with the stored symbols whose names contain it, each once. -/
def NameSearchExact (store : IndexStore) (query : String) : Prop :=
  ∃ records, store.symbolsMatchingName query = .ok records ∧ records.Nodup ∧
    ∀ record, record ∈ records ↔ store.Stores record ∧ ContainsIgnoringCase record.name query

/-- No character of the query means anything to `LIKE`, and the pattern is within its limit. -/
structure LiteralQuery (query : String) : Prop where
  percent : '%' ∉ query.toList
  underscore : '_' ∉ query.toList
  nul : NUL ∉ query.toList
  limit : byteLength query.toList + 2 ≤ LIKE_PATTERN_LIMIT

theorem filterM_eq_ok {E α : Type} {f : α → Except E Bool} {p : α → Bool} {l : List α} (h : ∀ a ∈ l, f a = .ok (p a)) :
    l.filterM f = .ok (l.filter p) := by
  have haux : ∀ acc, List.filterAuxM f l acc = .ok ((l.filter p).reverse ++ acc) := by
    induction l with
    | nil => intro acc; rfl
    | cons a l ih =>
      intro acc
      rw [List.filterAuxM, h a List.mem_cons_self, ok_bind, ih (fun b hb => h b (List.mem_cons_of_mem _ hb))]
      cases hp : p a <;> simp [hp]
  rw [List.filterM, haux, ok_bind, List.append_nil, List.reverse_reverse]
  rfl

/-! ## Reading the pattern -/

theorem untilNul_eq_self {text : List Char} (h : NUL ∉ text) : untilNul text = text :=
  List.takeWhile_eq_self_iff.2 fun _ hc => decide_eq_true fun heq => h (heq ▸ hc)

theorem mem_untilNul {text : List Char} {c : Char} (h : c ∈ untilNul text) : c ∈ text ∧ c ≠ NUL :=
  ⟨(List.takeWhile_sublist _).subset h, by simpa using List.mem_takeWhile_imp h⟩

theorem toLower_of_mem_lowered {text : String} {c : Char} (h : c ∈ lowered text) : c.toLower = c := by
  obtain ⟨d, -, rfl⟩ := List.mem_map.1 h
  exact toLower_toLower d

theorem toLower_of_mem_namePattern {query : String} {c : Char} (h : c ∈ namePattern query) : c.toLower = c := by
  rcases List.mem_cons.1 h with rfl | hc
  · exact toLower_of_toNat (by decide)
  rcases List.mem_append.1 hc with hc | hc
  · exact toLower_of_mem_lowered hc
  · obtain rfl := List.mem_singleton.1 hc
    exact toLower_of_toNat (by decide)

theorem byteLength_namePattern (query : String) : byteLength (namePattern query) = byteLength query.toList + 2 := by
  have hpercent : ('%' : Char).utf8Size = 1 := by decide
  rw [namePattern, List.cons_append, byteLength_cons, byteLength_append, byteLength_lowered, byteLength_cons, byteLength_nil,
    hpercent]
  omega

theorem like_namePattern {query : String} (hlimit : byteLength (namePattern query) ≤ LIKE_PATTERN_LIMIT) (name : String) :
    like (namePattern query) (lowered name) =
      .ok (wildcardMatch ((untilNul (namePattern query)).map likeAtom) (untilNul (lowered name))) := by
  have hpattern : ((untilNul (namePattern query)).map fun c => likeAtom c.toLower) =
      (untilNul (namePattern query)).map likeAtom :=
    List.map_congr_left fun c hc => by rw [toLower_of_mem_namePattern (mem_untilNul hc).1]
  have htext : (untilNul (lowered name)).map Char.toLower = untilNul (lowered name) :=
    (List.map_congr_left (g := id) fun c hc => toLower_of_mem_lowered (mem_untilNul hc).1).trans (List.map_id _)
  rw [like, if_neg (not_lt.2 hlimit), hpattern, htext]

theorem likeAtom_eq_literal {c : Char} (hpercent : c ≠ '%') (hunderscore : c ≠ '_') : likeAtom c = .literal c := by
  rw [likeAtom, if_neg hpercent, if_neg hunderscore]

/-- Without a percent sign, an underscore or a NUL the pattern means containment. -/
theorem fitsPattern_iff_contains {query name : String} (hpercent : '%' ∉ query.toList) (hunderscore : '_' ∉ query.toList)
    (hnul : NUL ∉ query.toList) (hname : NUL ∉ name.toList) : FitsPattern name query ↔ ContainsIgnoringCase name query := by
  have hnulq : NUL ∉ lowered query := fun h => hnul ((mem_lowered_iff (by decide)).1 h)
  have hnuln : NUL ∉ lowered name := fun h => hname ((mem_lowered_iff (by decide)).1 h)
  have hpattern : NUL ∉ namePattern query := by
    intro h
    rcases List.mem_cons.1 h with h | h
    · exact absurd h (by decide)
    rcases List.mem_append.1 h with h | h
    · exact hnulq h
    · exact absurd (List.mem_singleton.1 h) (by decide)
  have hatoms : (lowered query).map likeAtom = (lowered query).map .literal :=
    List.map_congr_left fun c hc => likeAtom_eq_literal
      (fun heq => hpercent ((mem_lowered_iff (by decide)).1 (heq ▸ hc)))
      (fun heq => hunderscore ((mem_lowered_iff (by decide)).1 (heq ▸ hc)))
  rw [FitsPattern, untilNul_eq_self hpattern, untilNul_eq_self hnuln, namePattern, List.cons_append, List.map_cons,
    List.map_append, hatoms]
  exact run_literals_run_match_iff

/-! ## One store -/

section
variable {store : IndexStore} {live : List FileAnalysisSnapshot} {query : String}

theorem symbolsMatchingName_eq_ok (store : IndexStore) (hlimit : byteLength (namePattern query) ≤ LIKE_PATTERN_LIMIT) :
    store.symbolsMatchingName query = .ok ((IndexStore.orderSymbols (store.symbols.filter fun row =>
      wildcardMatch ((untilNul (namePattern query)).map likeAtom) (untilNul (lowered row.name)))).filterMap store.joinSymbol) := by
  rw [IndexStore.symbolsMatchingName, filterM_eq_ok fun row _ => like_namePattern hlimit row.name, ok_bind]

theorem symbolsMatchingName_too_long (hlimit : ¬ byteLength (namePattern query) ≤ LIKE_PATTERN_LIMIT)
    (hsymbols : store.symbols ≠ []) : store.symbolsMatchingName query = .error .patternTooComplex := by
  have hlike : ∀ text, like (namePattern query) text = .error .patternTooComplex := fun text => if_pos (not_le.1 hlimit)
  unfold IndexStore.symbolsMatchingName
  cases hrows : store.symbols with
  | nil => exact absurd hrows hsymbols
  | cons row rows =>
    rw [List.filterM, List.filterAuxM, hlike]
    rfl

theorem Holds.mem_matching (h : Holds store live) {p : SymbolRow → Bool} {record : SymbolRecord} :
    record ∈ (IndexStore.orderSymbols (store.symbols.filter p)).filterMap store.joinSymbol ↔
      ∃ snapshot ∈ live, ∃ symbol ∈ snapshot.symbols, p (symbol.row snapshot.sourceUnit) = true ∧ symbol.stored snapshot = record := by
  have hmem : ∀ row, row ∈ IndexStore.orderSymbols (store.symbols.filter p) ↔ row ∈ store.symbols ∧ p row = true := by
    intro row
    rw [(IndexStore.orderSymbols_perm _).mem_iff, List.mem_filter]
  rw [h.mem_joined fun row hrow => ((hmem row).1 hrow).1]
  refine exists_congr fun snapshot => and_congr_right fun hs => exists_congr fun symbol => and_congr_right fun hsymbol => ?_
  rw [hmem]
  exact and_congr_left fun _ => and_iff_right (h.mem_symbols_iff.2 ⟨snapshot, hs, symbol, hsymbol, rfl⟩)

theorem Holds.matching_nodup (h : Holds store live) (p : SymbolRow → Bool) :
    ((IndexStore.orderSymbols (store.symbols.filter p)).filterMap store.joinSymbol).Nodup := by
  refine h.joined_nodup (fun row hrow => ?_) ?_
  · exact (List.mem_filter.1 ((IndexStore.orderSymbols_perm _).mem_iff.1 hrow)).1
  · exact (IndexStore.orderSymbols_perm _).nodup_iff.2 (h.symbols_nodup.filter _)

/-- The names decide: where the pattern is within the limit, it has to mean containment for each of them. -/
theorem Holds.nameSearchExact_iff (h : Holds store live) (query : String) : NameSearchExact store query ↔
    (store.symbols = [] ∨ byteLength (namePattern query) ≤ LIKE_PATTERN_LIMIT) ∧
      ∀ snapshot ∈ live, ∀ symbol ∈ snapshot.symbols,
        (FitsPattern symbol.name query ↔ ContainsIgnoringCase symbol.name query) := by
  by_cases hlimit : byteLength (namePattern query) ≤ LIKE_PATTERN_LIMIT
  · rw [and_iff_right (.inr hlimit)]
    have hrun := symbolsMatchingName_eq_ok store hlimit
    constructor
    · rintro ⟨records, hrecords, -, hmem⟩ snapshot hs symbol hsymbol
      obtain rfl := Except.ok.inj (hrun.symm.trans hrecords)
      have hstored : store.Stores (symbol.stored snapshot) := h.stores_iff.2 ⟨snapshot, hs, symbol, hsymbol, rfl⟩
      have hcontains := hmem (symbol.stored snapshot)
      rw [h.mem_matching, and_iff_right hstored] at hcontains
      refine Iff.trans ?_ hcontains
      constructor
      · exact fun hfits => ⟨snapshot, hs, symbol, hsymbol, hfits, rfl⟩
      · rintro ⟨other, -, symbol', -, hfits, heq⟩
        have hname : (symbol'.stored other).name = (symbol.stored snapshot).name := congrArg SymbolRecord.name heq
        change symbol'.name = symbol.name at hname
        unfold FitsPattern
        rw [← hname]
        exact hfits
    · intro hnames
      refine ⟨_, hrun, h.matching_nodup _, fun record => ?_⟩
      rw [h.mem_matching, h.stores_iff]
      constructor
      · rintro ⟨snapshot, hs, symbol, hsymbol, hfits, rfl⟩
        exact ⟨⟨snapshot, hs, symbol, hsymbol, rfl⟩, (hnames snapshot hs symbol hsymbol).1 hfits⟩
      · rintro ⟨⟨snapshot, hs, symbol, hsymbol, rfl⟩, hcontains⟩
        exact ⟨snapshot, hs, symbol, hsymbol, (hnames snapshot hs symbol hsymbol).2 hcontains, rfl⟩
  · by_cases hsymbols : store.symbols = []
    · have hnone : ∀ snapshot ∈ live, ∀ symbol, symbol ∉ snapshot.symbols := by
        intro snapshot hs symbol hsymbol
        have hmem := h.mem_symbols_iff.2 ⟨snapshot, hs, symbol, hsymbol, rfl⟩
        rw [hsymbols] at hmem
        cases hmem
      have hrun : store.symbolsMatchingName query = .ok [] := by
        rw [IndexStore.symbolsMatchingName, hsymbols]
        rfl
      refine iff_of_true ⟨[], hrun, List.nodup_nil, fun record => ?_⟩
        ⟨.inl hsymbols, fun snapshot hs symbol hsymbol => absurd hsymbol (hnone snapshot hs symbol)⟩
      refine iff_of_false List.not_mem_nil fun hstored => ?_
      obtain ⟨snapshot, hs, symbol, hsymbol, -⟩ := h.stores_iff.1 hstored.1
      exact hnone snapshot hs symbol hsymbol
    · refine iff_of_false ?_ fun hnames => hnames.1.elim hsymbols hlimit
      rintro ⟨records, hrecords, -⟩
      rw [symbolsMatchingName_too_long hlimit hsymbols] at hrecords
      cases hrecords

end

/-! ## A name for every pattern -/

/-- A name that fits the pattern of the query and has no percent sign, no underscore and no NUL. -/
def fittingName (query : String) : String :=
  String.ofList (instantiate 'x' ((untilNul (namePattern query)).map likeAtom))

theorem mem_fittingName {query : String} {c : Char} (h : c ∈ (fittingName query).toList) :
    c.toLower = c ∧ c ≠ '%' ∧ c ≠ '_' ∧ c ≠ NUL := by
  rw [fittingName, String.toList_ofList, instantiate, List.mem_flatMap] at h
  obtain ⟨atom, hatom, hc⟩ := h
  obtain ⟨d, hd, rfl⟩ := List.mem_map.1 hatom
  unfold likeAtom at hc
  split_ifs at hc with hpercent hunderscore
  · cases hc
  · obtain rfl := List.mem_singleton.1 hc
    decide
  · obtain rfl := List.mem_singleton.1 hc
    exact ⟨toLower_of_mem_namePattern (mem_untilNul hd).1, hpercent, hunderscore, (mem_untilNul hd).2⟩

theorem lowered_fittingName (query : String) : lowered (fittingName query) = (fittingName query).toList :=
  (List.map_congr_left (g := id) fun _ hc => (mem_fittingName hc).1).trans (List.map_id _)

theorem fittingName_fits (query : String) : FitsPattern (fittingName query) query := by
  unfold FitsPattern
  rw [lowered_fittingName, untilNul_eq_self fun h => (mem_fittingName h).2.2.2 rfl, fittingName, String.toList_ofList]
  exact instantiate_match _ _

/-- The name does not contain a query with a percent sign, an underscore or a NUL. -/
theorem fittingName_not_contains {query : String} {d : Char} (hd : d ∈ query.toList) (hspecial : d = '%' ∨ d = '_' ∨ d = NUL) :
    ¬ ContainsIgnoringCase (fittingName query) query := by
  intro hcontains
  have hascii : d.toNat < 65 ∨ (90 < d.toNat ∧ d.toNat < 97) := by
    rcases hspecial with rfl | rfl | rfl <;> decide
  have hname := hcontains.subset ((mem_lowered_iff hascii).2 hd)
  rw [lowered_fittingName] at hname
  obtain ⟨-, hpercent, hunderscore, hnul⟩ := mem_fittingName hname
  rcases hspecial with rfl | rfl | rfl
  · exact hpercent rfl
  · exact hunderscore rfl
  · exact hnul rfl

/-- A file that declares one class of the name. -/
def namedFile (name : String) : FileAnalysisSnapshot := declaring (sampleUnit "A.kt" "sha256:a") [name]

theorem namedFile_holds (name : String) : Holds (holding (namedFile name)) [namedFile name] := by
  refine holding_holds ?_
  have hkeys : keys FactRow.key (namedFile name).rows =
      [.sourceSnapshots (sampleUnit "A.kt" "sha256:a").id, .sourceProvenance (sampleUnit "A.kt" "sha256:a").id,
        .symbols ⟨name⟩] := rfl
  rw [KeysUnique, hkeys]
  simp

/-- **Names.** A store answers a query exactly if the pattern means containment for its names, and the queries that every
store of names without NUL answers exactly are the literal ones. -/
theorem symbolsMatchingName_exact_iff {store : IndexStore} {live : List FileAnalysisSnapshot} (h : Holds store live)
    (query : String) :
    (NameSearchExact store query ↔
      (store.symbols = [] ∨ byteLength (namePattern query) ≤ LIKE_PATTERN_LIMIT) ∧
        ∀ snapshot ∈ live, ∀ symbol ∈ snapshot.symbols,
          (FitsPattern symbol.name query ↔ ContainsIgnoringCase symbol.name query)) ∧
    ((∀ (other : IndexStore) (held : List FileAnalysisSnapshot), Holds other held →
        (∀ snapshot ∈ held, ∀ symbol ∈ snapshot.symbols, NUL ∉ symbol.name.toList) → NameSearchExact other query) ↔
      LiteralQuery query) := by
  refine ⟨h.nameSearchExact_iff query, fun hexact => ?_, fun hliteral other held hheld hnames => ?_⟩
  · have hname : ∀ d, d ∈ (fittingName query).toList → d ≠ NUL := fun d hd => (mem_fittingName hd).2.2.2
    have hanswer := hexact _ _ (namedFile_holds (fittingName query)) fun snapshot hs symbol hsymbol hnul => by
      obtain rfl := List.mem_singleton.1 hs
      obtain rfl := List.mem_singleton.1 hsymbol
      exact hname _ hnul rfl
    rw [(namedFile_holds _).nameSearchExact_iff] at hanswer
    obtain ⟨hlimit, hfits⟩ := hanswer
    have hcontains : ContainsIgnoringCase (fittingName query) query :=
      (hfits _ (List.mem_singleton.2 rfl) _ (List.mem_singleton.2 rfl)).1 (fittingName_fits query)
    refine ⟨fun hd => ?_, fun hd => ?_, fun hd => ?_, ?_⟩
    · exact fittingName_not_contains hd (.inl rfl) hcontains
    · exact fittingName_not_contains hd (.inr (.inl rfl)) hcontains
    · exact fittingName_not_contains hd (.inr (.inr rfl)) hcontains
    · rw [← byteLength_namePattern]
      refine hlimit.resolve_left fun hnone => ?_
      cases hnone
  · rw [hheld.nameSearchExact_iff]
    refine ⟨.inr ((byteLength_namePattern query).trans_le hliteral.limit), fun snapshot hs symbol hsymbol => ?_⟩
    exact fitsPattern_iff_contains hliteral.percent hliteral.underscore hliteral.nul (hnames snapshot hs symbol hsymbol)

/-- An underscore in the query fits a name without one. -/
theorem underscore_fits_other_name :
    ¬ ∀ (store : IndexStore) (live : List FileAnalysisSnapshot), Holds store live → ∀ query, NameSearchExact store query := by
  intro h
  have hnames := ((namedFile_holds "user1id").nameSearchExact_iff "user_id").1 (h _ _ (namedFile_holds "user1id") "user_id")
  have hcontains := (hnames.2 _ (List.mem_singleton.2 rfl) _ (List.mem_singleton.2 rfl)).1 (by decide)
  exact absurd hcontains (by decide)

theorem backslash_is_literal :
    (NameSearchExact (holding (namedFile "C\\path")) "\\P" ↔
      ((holding (namedFile "C\\path")).symbols = [] ∨ byteLength (namePattern "\\P") ≤ LIKE_PATTERN_LIMIT) ∧
        ∀ snapshot ∈ [namedFile "C\\path"], ∀ symbol ∈ snapshot.symbols,
          (FitsPattern symbol.name "\\P" ↔ ContainsIgnoringCase symbol.name "\\P")) ∧
    ((∀ (other : IndexStore) (held : List FileAnalysisSnapshot), Holds other held →
        (∀ snapshot ∈ held, ∀ symbol ∈ snapshot.symbols, NUL ∉ symbol.name.toList) → NameSearchExact other "\\P") ↔
      LiteralQuery "\\P") :=
  symbolsMatchingName_exact_iff (namedFile_holds "C\\path") "\\P"

end Kide
