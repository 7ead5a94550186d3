import Kide.Lib.MaximalRuns
import Kide.Lib.Scan
import Mathlib.Algebra.Group.Nat.Even
import Mathlib.Algebra.GroupWithZero.Nat
import Mathlib.Data.List.TakeWhile

/-!
# Patterns in Java texts

The regular expressions with which the Java extractor reads a source text, and what they match in terms of the text.

* `mem_typeWords` : the words of type declarations. Of two keywords that follow each other the second is read as a name
  (`counts_iff`);
* `inPackage_iff` : the package;
* `nameAt_iff` : the offset at which the name of a declaration stands.
-/

namespace Kide
open Scans MaximalRuns

namespace JavaSemanticExtractor

/-! ## Patterns -/

/-- The offset of a place is the number of UTF-16 code units before it. -/
def units (l : List Char) : Nat := (l.map fun c => if c.toNat < 0x10000 then 1 else 2).sum

/-- `\s` -/
def isSpace (c : Char) : Bool := c = ' ' || c = '\t' || c = '\n' || c = Char.ofNat 0xb || c = Char.ofNat 0xc || c = '\r'

/-- `[A-Za-z_]` -/
def isNameStart (c : Char) : Bool := ('A' ≤ c && c ≤ 'Z') || ('a' ≤ c && c ≤ 'z') || c = '_'

/-- `\w` -/
def isWord (c : Char) : Bool := isNameStart c || ('0' ≤ c && c ≤ '9')

section
variable (marked : List Char → Char → Bool)

/-- Beyond ASCII a non-spacing mark with a letter before it counts as a word letter; the tables of Unicode are a parameter. -/
def countsAsWord (before : List Char) (c : Char) : Bool := isWord c || (decide (128 ≤ c.toNat) && marked before c)

def wordBefore (before : List Char) : Bool :=
  match before.getLast? with
  | none => false
  | some c => countsAsWord marked before.dropLast c

def wordAfter (before after : List Char) : Bool :=
  match after.head? with
  | none => false
  | some c => countsAsWord marked before c

/-- `\b` -/
def boundary (before after : List Char) : Bool := wordBefore marked before != wordAfter marked before after

end

/-- `^` of a pattern with `(?m)` -/
def lineStart (before after : List Char) : Bool :=
  match after.head?, before.getLast? with
  | none, _ => false
  | some _, none => true
  | some next, some c => (c = '\n' || c = '\r' || c = Char.ofNat 0x85 || c = Char.ofNat 0x2028 || c = Char.ofNat 0x2029) &&
      !(c = '\r' && next = '\n')

/-! ## The words of a declaration -/

inductive Keyword where
  | class_ | interface | enum
deriving DecidableEq, Repr

def Keyword.word : Keyword → List Char
  | .class_ => "class".toList
  | .interface => "interface".toList
  | .enum => "enum".toList

def keywords : List Keyword := [.class_, .interface, .enum]

/-- What follows a front of the text. -/
def dropFront : List Char → List Char → Option (List Char)
  | [], l => some l
  | _ :: _, [] => none
  | c :: front, d :: l => if c = d then dropFront front l else none

/-- The words of a match of the declaration pattern. -/
structure TypeWords where
  keyword : Keyword
  gap : List Char
  name : List Char
deriving DecidableEq, Repr

def TypeWords.value (words : TypeWords) : List Char := words.keyword.word ++ words.gap ++ words.name

/-- `\s+([A-Za-z_]\w*)` behind a keyword. The classes of letters that follow each other are disjoint: there is one way to match. -/
def nameBehind (keyword : Keyword) (rest : List Char) : Option TypeWords :=
  let gap := rest.takeWhile isSpace
  let name := (rest.dropWhile isSpace).takeWhile isWord
  if gap ≠ [] ∧ name.head?.any isNameStart then some ⟨keyword, gap, name⟩ else none

/-- `\b(class|interface|enum)\s+([A-Za-z_]\w*)` -/
def typeWords (marked : List Char → Char → Bool) (before after : List Char) : Option (Nat × TypeWords) :=
  if boundary marked before after then
    (keywords.findSome? fun keyword => (dropFront keyword.word after).bind (nameBehind keyword)).map fun words =>
      (words.value.length, words)
  else none

/-- `[\w.]` -/
def isPackageLetter (c : Char) : Bool := isWord c || c = '.'

/-- `(?m)^\s*package\s+([A-Za-z_][\w.]*)\s*;` -/
def packageWords (before after : List Char) : Option (List Char) :=
  if lineStart before after then
    (dropFront "package".toList (after.dropWhile isSpace)).bind fun rest =>
      let name := (rest.dropWhile isSpace).takeWhile isPackageLetter
      let behind := ((rest.dropWhile isSpace).dropWhile isPackageLetter).dropWhile isSpace
      if rest.takeWhile isSpace ≠ [] ∧ name.head?.any isNameStart ∧ behind.head? = some ';' then some name else none
  else none

def packageName (text : List Char) : List Char := ((find packageWords [] text).map Prod.snd).getD []

def lastIndexOf (name : List Char) : List Char → Option Nat
  | [] => if name = [] then some 0 else none
  | c :: value =>
    match lastIndexOf name value with
    | some n => some (n + 1)
    | none => if (dropFront name (c :: value)).isSome then some 0 else none

section
variable (marked : List Char → Char → Bool)

/-- `\bname\b` from an offset on -/
def wholeWord (name : List Char) (start : Nat) (before after : List Char) : Option Unit :=
  if start ≤ units before ∧ boundary marked before after then
    (dropFront name after).bind fun rest => if boundary marked (before ++ name) rest then some () else none
  else none

def nameOffset (text name : List Char) (start stop : Nat) : Nat :=
  match find (wholeWord marked name start) [] text with
  | some (before, _) => if units before < stop then units before else start
  | none => start

end

/-! ## Matches in terms of the text -/

section
variable {marked : List Char → Char → Bool}

theorem dropFront_eq_some_iff {front l rest : List Char} : dropFront front l = some rest ↔ l = front ++ rest := by
  induction front generalizing l with
  | nil => exact ⟨fun h => Option.some.inj h, fun h => congrArg some h⟩
  | cons c front ih =>
    cases l with
    | nil => exact iff_of_false (by rw [dropFront]; simp) (by simp)
    | cons d l =>
      rw [dropFront, List.cons_append, List.cons.injEq]
      by_cases h : c = d
      · rw [if_pos h, ih, and_iff_right h.symm]
      · rw [if_neg h]
        exact iff_of_false (by simp) fun hboth => h hboth.1.symm

theorem word_isWord (keyword : Keyword) : ∀ c ∈ keyword.word, isWord c = true := by
  intro c hc
  have hall : keyword.word.all isWord = true := by cases keyword <;> decide
  exact List.all_eq_true.1 hall c hc

theorem space_not_word {c : Char} (h : isSpace c = true) : isWord c = false := by
  unfold isSpace at h
  simp only [Bool.or_eq_true, decide_eq_true_eq] at h
  rcases h with ((((rfl | rfl) | rfl) | rfl) | rfl) | rfl <;> decide

theorem nameStart_word {c : Char} (h : isNameStart c = true) : isWord c = true := by
  rw [isWord, h, Bool.true_or]

/-- At least one letter of white space. -/
def Gap (l : List Char) : Prop := l ≠ [] ∧ ∀ c ∈ l, isSpace c = true

/-- `[A-Za-z_]\w*` -/
def Name (l : List Char) : Prop := (∃ c, l.head? = some c ∧ isNameStart c = true) ∧ ∀ c ∈ l, isWord c = true

/-- The letter before the place is a letter of a word. -/
theorem wordBefore_append {l m : List Char} (hne : m ≠ []) (h : ∀ c ∈ m, isWord c = true) : wordBefore marked (l ++ m) = true := by
  obtain ⟨init, c, rfl⟩ := List.eq_nil_or_concat m |>.resolve_left hne
  rw [wordBefore, List.concat_eq_append, ← List.append_assoc, List.getLast?_concat]
  dsimp only
  rw [countsAsWord, h c (by simp), Bool.true_or]

theorem word_cons (keyword : Keyword) : ∃ c rest, keyword.word = c :: rest ∧ isNameStart c = true := by
  cases keyword
  · exact ⟨'c', "lass".toList, by decide, by decide⟩
  · exact ⟨'i', "nterface".toList, by decide, by decide⟩
  · exact ⟨'e', "num".toList, by decide, by decide⟩

theorem boundary_keyword (before : List Char) (keyword : Keyword) (rest : List Char) :
    boundary marked before (keyword.word ++ rest) = !wordBefore marked before := by
  obtain ⟨c, tail, hword, hc⟩ := word_cons keyword
  rw [boundary, hword, List.cons_append, wordAfter, List.head?_cons]
  dsimp only
  rw [countsAsWord, nameStart_word hc, Bool.true_or, Bool.bne_true]

theorem keyword_of_front {a b : Keyword} {x y : List Char} (h : a.word ++ x = b.word ++ y) : a = b := by
  have hhead : a.word.head? = b.word.head? := by
    obtain ⟨c, l, ha, -⟩ := word_cons a
    obtain ⟨d, m, hb, -⟩ := word_cons b
    rw [ha, hb, List.cons_append, List.cons_append] at h
    rw [ha, hb, List.head?_cons, List.head?_cons, (List.cons.inj h).1]
  revert hhead
  cases a <;> cases b <;> decide

theorem nameBehind_eq_some_iff {keyword : Keyword} {rest : List Char} {words : TypeWords} :
    nameBehind keyword rest = some words ↔ words.keyword = keyword ∧ Gap words.gap ∧ Name words.name ∧
      ∃ tail, rest = words.gap ++ words.name ++ tail ∧ StartsOutside (isWord · = true) tail := by
  unfold nameBehind
  dsimp only
  constructor
  · intro h
    split_ifs at h with hmatch
    cases h
    obtain ⟨hgap, hname⟩ := hmatch
    refine ⟨rfl, ⟨hgap, fun c hc => List.mem_takeWhile_imp hc⟩, ⟨?_, fun c hc => List.mem_takeWhile_imp hc⟩,
      (rest.dropWhile isSpace).dropWhile isWord, ?_, startsOutside_dropWhile _ _⟩
    · cases hhead : ((rest.dropWhile isSpace).takeWhile isWord).head? with
      | none =>
        rw [hhead] at hname
        cases hname
      | some c =>
        rw [hhead] at hname
        exact ⟨c, rfl, hname⟩
    · rw [List.append_assoc, List.takeWhile_append_dropWhile, List.takeWhile_append_dropWhile]
  · rintro ⟨rfl, hgap, hname, tail, rfl, htail⟩
    obtain ⟨⟨c, hc, hstart⟩, hinside⟩ := hname
    have hout : StartsOutside (isSpace · = true) (words.name ++ tail) := by
      intro d hd hspace
      rw [List.head?_append, hc, Option.some_or] at hd
      cases hd
      have := nameStart_word hstart
      rw [space_not_word hspace] at this
      cases this
    rw [List.append_assoc, MaximalRuns.takeWhile_append hgap.2 hout, MaximalRuns.dropWhile_append hgap.2 hout,
      MaximalRuns.takeWhile_append hinside htail, if_pos ⟨hgap.1, by rw [hc]; exact hstart⟩]

theorem typeWords_eq_some_iff {before after : List Char} {n : Nat} {words : TypeWords} :
    typeWords marked before after = some (n, words) ↔ n = words.value.length ∧ wordBefore marked before = false ∧ Gap words.gap ∧
      Name words.name ∧ ∃ rest, after = words.value ++ rest ∧ StartsOutside (isWord · = true) rest := by
  constructor
  · intro h
    unfold typeWords at h
    split_ifs at h with hboundary
    obtain ⟨found, hfound, heq⟩ := Option.map_eq_some_iff.1 h
    cases heq
    obtain ⟨keyword, -, hkeyword⟩ := List.exists_of_findSome?_eq_some hfound
    obtain ⟨rest, hrest, hbehind⟩ := Option.bind_eq_some_iff.1 hkeyword
    obtain rfl := dropFront_eq_some_iff.1 hrest
    obtain ⟨rfl, hgap, hname, tail, rfl, htail⟩ := nameBehind_eq_some_iff.1 hbehind
    rw [boundary_keyword, Bool.not_eq_true'] at hboundary
    refine ⟨rfl, hboundary, hgap, hname, tail, ?_, htail⟩
    rw [TypeWords.value, List.append_assoc, List.append_assoc, List.append_assoc]
  · rintro ⟨rfl, hbefore, hgap, hname, rest, rfl, hrest⟩
    have hassoc : words.value ++ rest = words.keyword.word ++ (words.gap ++ words.name ++ rest) := by
      rw [TypeWords.value, List.append_assoc, List.append_assoc, List.append_assoc]
    have hone : ∀ keyword, (dropFront keyword.word (words.value ++ rest)).bind (nameBehind keyword) =
        if keyword = words.keyword then some words else none := by
      intro keyword
      cases hdrop : dropFront keyword.word (words.value ++ rest) with
      | none =>
        rw [if_neg]
        · rfl
        · rintro rfl
          rw [dropFront_eq_some_iff.2 hassoc] at hdrop
          cases hdrop
      | some tail =>
        have hkeyword := keyword_of_front ((dropFront_eq_some_iff.1 hdrop).symm.trans hassoc)
        subst hkeyword
        rw [dropFront_eq_some_iff.2 hassoc] at hdrop
        cases hdrop
        rw [if_pos rfl, Option.bind_some]
        exact nameBehind_eq_some_iff.2 ⟨rfl, hgap, hname, rest, rfl, hrest⟩
    have hfind : (keywords.findSome? fun keyword => (dropFront keyword.word (words.value ++ rest)).bind (nameBehind keyword)) =
        some words := by
      rw [funext hone, keywords]
      cases words.keyword <;> rfl
    have hboundary : boundary marked before (words.value ++ rest) = true := by
      rw [hassoc, boundary_keyword, hbefore]
      rfl
    rw [typeWords, if_pos hboundary, hfind]
    rfl

/-! ### Keywords before a place -/

variable (marked) in
/-- So many keywords with white space behind them stand one after the other right before the place. -/
inductive KeywordsBefore : List Char → Nat → Prop where
  | none {before : List Char} (h : ∀ front keyword gap, before = front ++ Keyword.word keyword ++ gap → Gap gap →
      wordBefore marked front = true) : KeywordsBefore before 0
  | one {front : List Char} {n : Nat} (keyword : Keyword) {gap : List Char} (hgap : Gap gap) (hstart : wordBefore marked front = false)
      (h : KeywordsBefore front n) : KeywordsBefore (front ++ keyword.word ++ gap) (n + 1)

/-- The white space at the end of a text is one. -/
theorem gap_unique {a b gap gap' : List Char} (h : a ++ gap = b ++ gap') (hgap : ∀ c ∈ gap, isSpace c = true)
    (hgap' : ∀ c ∈ gap', isSpace c = true) (ha : EndsOutside (isSpace · = true) a) (hb : EndsOutside (isSpace · = true) b) :
    a = b ∧ gap = gap' := by
  rcases List.append_eq_append_iff.1 h with ⟨x, rfl, rfl⟩ | ⟨x, rfl, rfl⟩
  · obtain rfl := hb.eq_nil fun c hc => hgap c (List.mem_append_left _ hc)
    exact ⟨(List.append_nil _).symm, rfl⟩
  · obtain rfl := ha.eq_nil fun c hc => hgap' c (List.mem_append_left _ hc)
    exact ⟨List.append_nil _, rfl⟩

theorem word_endsOutside (front : List Char) (keyword : Keyword) : EndsOutside (isSpace · = true) (front ++ keyword.word) := by
  intro c hc hspace
  obtain ⟨d, rest, hword, -⟩ := word_cons keyword
  have hmem : c ∈ keyword.word := by
    rw [List.getLast?_append_of_ne_nil _ (by rw [hword]; exact List.cons_ne_nil _ _)] at hc
    exact List.mem_of_getLast? hc
  have hword := word_isWord keyword c hmem
  rw [space_not_word hspace] at hword
  cases hword

theorem keyword_of_end {a b : Keyword} {x y : List Char} (h : x ++ a.word = y ++ b.word) : x = y ∧ a = b := by
  have hne : ∀ keyword : Keyword, keyword.word ≠ [] := fun keyword => by cases keyword <;> decide
  have hlast : a.word.getLast? = b.word.getLast? := by
    rw [← List.getLast?_append_of_ne_nil x (hne a), h, List.getLast?_append_of_ne_nil y (hne b)]
  have hsame : a = b := by
    revert hlast
    cases a <;> cases b <;> decide
  subst hsame
  exact ⟨List.append_cancel_right h, rfl⟩

/-- A keyword with white space behind it is read from the end in one way. -/
theorem keyword_gap_unique {front front' gap gap' : List Char} {keyword keyword' : Keyword}
    (h : front ++ keyword.word ++ gap = front' ++ keyword'.word ++ gap') (hgap : Gap gap) (hgap' : Gap gap') :
    front = front' ∧ keyword = keyword' ∧ gap = gap' := by
  obtain ⟨hfront, rfl⟩ := gap_unique h hgap.2 hgap'.2 (word_endsOutside _ _) (word_endsOutside _ _)
  obtain ⟨rfl, rfl⟩ := keyword_of_end hfront
  exact ⟨rfl, rfl, rfl⟩

theorem KeywordsBefore.of_keyword {front gap : List Char} {keyword : Keyword} {n : Nat} (hgap : Gap gap)
    (hstart : wordBefore marked front = false) (h : KeywordsBefore marked (front ++ keyword.word ++ gap) n) :
    ∃ m, n = m + 1 ∧ KeywordsBefore marked front m := by
  generalize hbefore : front ++ keyword.word ++ gap = before at h
  cases h with
  | none hnone =>
    have := hnone front keyword gap hbefore.symm hgap
    rw [hstart] at this
    cases this
  | @one front' m keyword' gap' hgap' _ hrest =>
    obtain ⟨rfl, -, -⟩ := keyword_gap_unique hbefore hgap hgap'
    exact ⟨m, rfl, hrest⟩

theorem KeywordsBefore.of_no_keyword {before : List Char} {n : Nat} (h : KeywordsBefore marked before n)
    (hnone : ∀ front keyword gap, before = front ++ Keyword.word keyword ++ gap → Gap gap → wordBefore marked front = true) : n = 0 := by
  cases h with
  | none => rfl
  | one keyword hgap hstart _ =>
    have := hnone _ keyword _ rfl hgap
    rw [hstart] at this
    cases this

theorem KeywordsBefore.unique {before : List Char} {m n : Nat} (hm : KeywordsBefore marked before m)
    (hn : KeywordsBefore marked before n) : m = n := by
  induction hm generalizing n with
  | none h => exact (hn.of_no_keyword h).symm
  | one keyword hgap hstart _ ih =>
    obtain ⟨m, rfl, hrest⟩ := hn.of_keyword hgap hstart
    rw [ih hrest]

variable (marked) in
theorem exists_keywordsBefore (before : List Char) : ∃ n, KeywordsBefore marked before n := by
  induction hlength : before.length using Nat.strong_induction_on generalizing before with
  | _ length ih =>
    by_cases hkeyword : ∃ front keyword gap, before = front ++ Keyword.word keyword ++ gap ∧ Gap gap ∧ wordBefore marked front = false
    · obtain ⟨front, keyword, gap, rfl, hgap, hstart⟩ := hkeyword
      have hshort : front.length < length := by
        have := List.length_pos_iff.2 hgap.1
        rw [List.length_append, List.length_append] at hlength
        omega
      obtain ⟨n, hn⟩ := ih _ hshort front rfl
      exact ⟨n + 1, .one keyword hgap hstart hn⟩
    · refine ⟨0, .none fun front keyword gap hbefore hgap => ?_⟩
      by_contra hstart
      exact hkeyword ⟨front, keyword, gap, hbefore, hgap, Bool.eq_false_iff.2 hstart⟩

/-! ### The matches that count -/

/-- A match that reaches into a place at which the pattern matches has the keyword there as its name. -/
theorem reaching_match {text before rest before' rest' : List Char} {n n' : Nat} {words words' : TypeWords}
    (htext : text = before ++ rest) (h : typeWords marked before rest = some (n, words)) (htext' : text = before' ++ rest')
    (h' : typeWords marked before' rest' = some (n', words')) (hearlier : before'.length < before.length)
    (hreach : before.length < before'.length + n') : before = before' ++ words'.keyword.word ++ words'.gap := by
  obtain ⟨-, hboundary, -, -, tail, rfl, -⟩ := typeWords_eq_some_iff.1 h
  obtain ⟨rfl, -, hgap', hname', tail', rfl, -⟩ := typeWords_eq_some_iff.1 h'
  have hword : ∀ l m : List Char, before = l ++ m → (∀ c ∈ m, isWord c = true) → m = [] := by
    rintro l m rfl hm
    by_contra hne
    rw [wordBefore_append hne hm] at hboundary
    cases hboundary
  rw [htext', TypeWords.value, TypeWords.value] at htext
  simp only [List.append_assoc] at htext ⊢
  rcases List.append_eq_append_iff.1 htext with ⟨mid, rfl, hmid⟩ | ⟨mid, rfl, -⟩
  swap
  · rw [List.length_append] at hearlier
    omega
  rcases List.append_eq_append_iff.1 hmid with ⟨x, rfl, hx⟩ | ⟨x, hx, -⟩
  swap
  · -- The place is in the keyword.
    obtain rfl := hword _ _ rfl fun c hc => word_isWord words'.keyword c (hx ▸ List.mem_append_left _ hc)
    simp at hearlier
  rcases List.append_eq_append_iff.1 hx with ⟨y, rfl, hy⟩ | ⟨z, hz, hrest⟩
  · -- The place is in the name, or at its beginning.
    rcases List.append_eq_append_iff.1 hy with ⟨w, rfl, -⟩ | ⟨w, hw, -⟩
    · rw [TypeWords.value] at hreach
      simp only [List.length_append] at hreach
      omega
    · obtain rfl := hword (before' ++ (words'.keyword.word ++ words'.gap)) y (by simp only [List.append_assoc])
        fun c hc => hname'.2 c (hw ▸ List.mem_append_left _ hc)
      rw [List.append_nil]
  · -- The place is in the white space, or at its end.
    cases z with
    | nil =>
      rw [List.append_nil] at hz
      rw [hz]
    | cons c z =>
      obtain ⟨d, word, hword', hd⟩ := word_cons words.keyword
      rw [hword', List.cons_append, List.cons_append, List.cons.injEq] at hrest
      have hspace : isSpace d = true := hrest.1 ▸ hgap'.2 c (hz ▸ List.mem_append_right _ List.mem_cons_self)
      have hcontra := nameStart_word hd
      rw [space_not_word hspace] at hcontra
      cases hcontra

theorem typeWords_spec {before after : List Char} {n : Nat} {words : TypeWords}
    (h : typeWords marked before after = some (n, words)) : 0 < n ∧ after ≠ [] := by
  obtain ⟨rfl, -, hgap, -, rest, rfl, -⟩ := typeWords_eq_some_iff.1 h
  have hpos : 0 < words.value.length := by
    rw [TypeWords.value, List.length_append, List.length_append]
    have := List.length_pos_iff.2 hgap.1
    omega
  exact ⟨hpos, fun hnil => hpos.ne' (by rw [(List.append_eq_nil_iff.1 hnil).1]; rfl)⟩

/-- Where the pattern matches behind a keyword, it matches at the keyword too, with the words there as the name. -/
theorem match_at_keyword {front gap rest : List Char} {keyword : Keyword} {n : Nat} {words : TypeWords} (hgap : Gap gap)
    (hstart : wordBefore marked front = false) (h : typeWords marked (front ++ keyword.word ++ gap) rest = some (n, words)) :
    ∃ n' words', typeWords marked front (keyword.word ++ gap ++ rest) = some (n', words') ∧
      (front ++ keyword.word ++ gap).length < front.length + n' := by
  obtain ⟨-, -, -, -, tail, rfl, -⟩ := typeWords_eq_some_iff.1 h
  obtain ⟨c, word, hword, hc⟩ := word_cons words.keyword
  let name := (words.value ++ tail).takeWhile isWord
  have hhead : words.value ++ tail = c :: (word ++ words.gap ++ words.name ++ tail) := by
    rw [TypeWords.value, hword]
    rfl
  have hname : name = c :: (word ++ words.gap ++ words.name ++ tail).takeWhile isWord := by
    rw [show name = (words.value ++ tail).takeWhile isWord from rfl, hhead, List.takeWhile_cons_of_pos (nameStart_word hc)]
  have hlength : 0 < name.length := by
    rw [hname]
    exact Nat.succ_pos _
  refine ⟨_, ⟨keyword, gap, name⟩, typeWords_eq_some_iff.2 ⟨rfl, hstart, hgap, ⟨⟨c, by rw [hname]; rfl, hc⟩, ?_⟩,
    (words.value ++ tail).dropWhile isWord, ?_, startsOutside_dropWhile _ _⟩, ?_⟩
  · exact fun d hd => List.mem_takeWhile_imp hd
  · have hsplit : name ++ (words.value ++ tail).dropWhile isWord = words.value ++ tail := List.takeWhile_append_dropWhile
    change keyword.word ++ gap ++ (words.value ++ tail) = keyword.word ++ gap ++ name ++ (words.value ++ tail).dropWhile isWord
    rw [List.append_assoc _ name, hsplit]
  · change (front ++ keyword.word ++ gap).length < front.length + (keyword.word ++ gap ++ name).length
    rw [List.length_append, List.length_append, List.length_append, List.length_append]
    omega

/-- **Keywords.** A match counts exactly if an even number of keywords stands right before it: of each two the second is the name. -/
theorem counts_iff {text before rest : List Char} {n : Nat} {words : TypeWords} (htext : text = before ++ rest)
    (h : typeWords marked before rest = some (n, words)) :
    Counts (typeWords marked) (findAll (typeWords marked) 0 [] text) text before ↔
      ∃ k, Even k ∧ KeywordsBefore marked before k := by
  induction hlength : before.length using Nat.strong_induction_on generalizing before rest n words with
  | _ length ih =>
    by_cases hkeyword : ∃ front keyword gap, before = front ++ Keyword.word keyword ++ gap ∧ Gap gap ∧ wordBefore marked front = false
    · obtain ⟨front, keyword, gap, rfl, hgap, hstart⟩ := hkeyword
      obtain ⟨n', words', hmatch, hreach⟩ := match_at_keyword hgap hstart h
      have hfront : text = front ++ (keyword.word ++ gap ++ rest) := by
        rw [htext, List.append_assoc, List.append_assoc, List.append_assoc]
      have hshort : front.length < (front ++ keyword.word ++ gap).length := by
        have := List.length_pos_iff.2 hgap.1
        rw [List.length_append, List.length_append]
        omega
      have hbefore : Counts (typeWords marked) (findAll (typeWords marked) 0 [] text) text (front ++ keyword.word ++ gap) ↔
          ¬ Counts (typeWords marked) (findAll (typeWords marked) 0 [] text) text front := by
        constructor
        · intro hcounts hfirst
          have hfound : (front, words') ∈ findAll (typeWords marked) 0 [] text :=
            (mem_findAll_iff fun _ _ _ _ => typeWords_spec).2 ⟨_, n', hfront, hmatch, hfirst⟩
          have := hcounts front words' hfound n' _ hfront hmatch hshort
          omega
        · intro hnot place found hfound m tail hplace hplaced hlt
          by_contra hreaching
          have hsame := reaching_match htext h hplace hplaced hlt (not_le.1 hreaching)
          obtain ⟨-, -, hfoundGap, -⟩ := typeWords_eq_some_iff.1 hplaced
          obtain ⟨rfl, -, -⟩ := keyword_gap_unique hsame hgap hfoundGap
          obtain ⟨_, _, -, -, hcounts⟩ := (mem_findAll_iff fun _ _ _ _ => typeWords_spec).1 hfound
          exact hnot hcounts
      rw [hbefore, ih _ (hlength ▸ hshort) hfront hmatch rfl]
      obtain ⟨k, hk⟩ := exists_keywordsBefore marked front
      constructor
      · intro hodd
        refine ⟨k + 1, ?_, .one keyword hgap hstart hk⟩
        rw [Nat.even_add_one]
        exact fun heven => hodd ⟨k, heven, hk⟩
      · rintro ⟨k', heven, hk'⟩ ⟨m, hm, hfirst⟩
        obtain ⟨m', rfl, hrest⟩ := hk'.of_keyword hgap hstart
        rw [hrest.unique hfirst, Nat.even_add_one] at heven
        exact heven hm
    · have hnone : ∀ front keyword gap, before = front ++ Keyword.word keyword ++ gap → Gap gap → wordBefore marked front = true := by
        intro front keyword gap hbefore hgap
        by_contra hstart
        exact hkeyword ⟨front, keyword, gap, hbefore, hgap, Bool.eq_false_iff.2 hstart⟩
      refine iff_of_true (fun place found hfound m tail hplace hplaced hlt => ?_) ⟨0, Even.zero, .none hnone⟩
      by_contra hreaching
      have hsame := reaching_match htext h hplace hplaced hlt (not_le.1 hreaching)
      obtain ⟨-, hstart, hgap, -⟩ := typeWords_eq_some_iff.1 hplaced
      exact hkeyword ⟨_, _, _, hsame, hgap, hstart⟩

variable (marked) in
/-- The text has, behind `before`, a keyword, white space and a name, and the keyword is not read as a name itself. -/
structure Declares (text before : List Char) (words : TypeWords) : Prop where
  reads : ∃ rest, text = before ++ words.value ++ rest ∧ StartsOutside (isWord · = true) rest
  starts : wordBefore marked before = false
  gap : Gap words.gap
  name : Name words.name
  free : ∃ k, Even k ∧ KeywordsBefore marked before k

/-- **Declaration pattern.** -/
theorem mem_typeWords {text before : List Char} {words : TypeWords} :
    (before, words) ∈ findAll (typeWords marked) 0 [] text ↔ Declares marked text before words := by
  rw [mem_findAll_iff fun _ _ _ _ => typeWords_spec]
  constructor
  · rintro ⟨rest, n, htext, h, hcounts⟩
    have hfree := (counts_iff htext h).1 hcounts
    obtain ⟨-, hstart, hgap, hname, tail, rfl, htail⟩ := typeWords_eq_some_iff.1 h
    exact ⟨⟨tail, by rw [htext, List.append_assoc], htail⟩, hstart, hgap, hname, hfree⟩
  · rintro ⟨⟨rest, htext, hrest⟩, hstart, hgap, hname, hfree⟩
    rw [List.append_assoc] at htext
    have h : typeWords marked before (words.value ++ rest) = some (words.value.length, words) :=
      typeWords_eq_some_iff.2 ⟨rfl, hstart, hgap, hname, rest, rfl, hrest⟩
    exact ⟨_, _, htext, h, (counts_iff htext h).2 hfree⟩

/-! ### The package -/

/-- A line begins before white space and the package clause. -/
structure PackageClause (before after name : List Char) : Prop where
  line : lineStart before after = true
  reads : ∃ front gap back rest, after = front ++ ("package".toList ++ (gap ++ (name ++ (back ++ ';' :: rest)))) ∧
    (∀ c ∈ front, isSpace c = true) ∧ Gap gap ∧ ∀ c ∈ back, isSpace c = true
  starts : ∃ c, name.head? = some c ∧ isNameStart c = true
  inside : ∀ c ∈ name, isPackageLetter c = true

theorem space_not_package {c : Char} (h : isSpace c = true) : isPackageLetter c = false := by
  rw [isPackageLetter, space_not_word h, Bool.false_or, decide_eq_false_iff_not]
  rintro rfl
  revert h
  decide

theorem startsOutside_of_head {p : Char → Bool} {l rest : List Char} {c : Char} (hc : l.head? = some c) (hp : p c = false) :
    StartsOutside (p · = true) (l ++ rest) := by
  intro d hd hpos
  rw [List.head?_append, hc, Option.some_or, Option.some.injEq] at hd
  rw [← hd, hp] at hpos
  cases hpos

theorem packageWords_eq_some_iff {before after name : List Char} :
    packageWords before after = some name ↔ PackageClause before after name := by
  constructor
  · intro h
    unfold packageWords at h
    split_ifs at h with hline
    obtain ⟨rest, hrest, hname⟩ := Option.bind_eq_some_iff.1 h
    dsimp only at hname
    split_ifs at hname with hmatch
    obtain ⟨hgap, hhead, hend⟩ := hmatch
    cases hname
    obtain ⟨tail, htail⟩ := List.head?_eq_some_iff.1 hend
    refine ⟨hline, ⟨after.takeWhile isSpace, rest.takeWhile isSpace,
      ((rest.dropWhile isSpace).dropWhile isPackageLetter).takeWhile isSpace, tail, ?_,
      fun c hc => List.mem_takeWhile_imp hc, ⟨hgap, fun c hc => List.mem_takeWhile_imp hc⟩, fun c hc => List.mem_takeWhile_imp hc⟩,
      ?_, fun c hc => List.mem_takeWhile_imp hc⟩
    · rw [← htail, List.takeWhile_append_dropWhile, List.takeWhile_append_dropWhile, List.takeWhile_append_dropWhile,
        ← dropFront_eq_some_iff.1 hrest, List.takeWhile_append_dropWhile]
    · cases hfirst : ((rest.dropWhile isSpace).takeWhile isPackageLetter).head? with
      | none =>
        rw [hfirst] at hhead
        cases hhead
      | some c =>
        rw [hfirst] at hhead
        exact ⟨c, rfl, hhead⟩
  · rintro ⟨hline, ⟨front, gap, back, rest, rfl, hfront, hgap, hback⟩, ⟨c, hc, hstart⟩, hinside⟩
    have hsemicolon : ∀ p : Char → Bool, p ';' = false → StartsOutside (p · = true) (';' :: rest) := by
      intro p hp
      exact startsOutside_cons (by rw [hp]; decide)
    have hnotSpace : isSpace c = false := by
      by_contra hspace
      have hword := nameStart_word hstart
      rw [space_not_word (Bool.not_eq_false _ ▸ hspace)] at hword
      cases hword
    have hafter : (front ++ ("package".toList ++ (gap ++ (name ++ (back ++ ';' :: rest))))).dropWhile isSpace =
        "package".toList ++ (gap ++ (name ++ (back ++ ';' :: rest))) :=
      MaximalRuns.dropWhile_append hfront (startsOutside_of_head (c := 'p') (by decide) (by decide))
    have hgapName : (gap ++ (name ++ (back ++ ';' :: rest))).takeWhile isSpace = gap ∧
        (gap ++ (name ++ (back ++ ';' :: rest))).dropWhile isSpace = name ++ (back ++ ';' :: rest) :=
      ⟨MaximalRuns.takeWhile_append hgap.2 (startsOutside_of_head hc hnotSpace),
        MaximalRuns.dropWhile_append hgap.2 (startsOutside_of_head hc hnotSpace)⟩
    have hout : StartsOutside (isPackageLetter · = true) (back ++ ';' :: rest) := by
      cases back with
      | nil => exact hsemicolon _ (by decide)
      | cons d back => exact startsOutside_cons (by rw [space_not_package (hback d List.mem_cons_self)]; decide)
    have hback' : (back ++ ';' :: rest).dropWhile isSpace = ';' :: rest :=
      MaximalRuns.dropWhile_append hback (hsemicolon _ (by decide))
    rw [packageWords, if_pos hline, hafter, dropFront_eq_some_iff.2 rfl, Option.bind_some]
    dsimp only
    rw [hgapName.1, hgapName.2, MaximalRuns.takeWhile_append hinside hout, MaximalRuns.dropWhile_append hinside hout, hback',
      if_pos ⟨hgap.1, by rw [hc]; exact hstart, rfl⟩]

/-- The package of a text: the name in the first clause. -/
def InPackage (text name : List Char) : Prop :=
  (∃ before after, text = before ++ after ∧ PackageClause before after name ∧ ∀ before' after' name',
    text = before' ++ after' → before'.length < before.length → ¬ PackageClause before' after' name') ∨
  (name = [] ∧ ∀ before after name', text = before ++ after → ¬ PackageClause before after name')

theorem not_packageClause_iff {before after : List Char} :
    packageWords before after = none ↔ ∀ name, ¬ PackageClause before after name := by
  rw [Option.eq_none_iff_forall_ne_some]
  exact forall_congr' fun name => not_congr packageWords_eq_some_iff

/-- **Package.** -/
theorem inPackage_iff {text name : List Char} : InPackage text name ↔ packageName text = name := by
  unfold packageName
  cases hfind : find packageWords [] text with
  | none =>
    have hnone : ∀ before after name', text = before ++ after → ¬ PackageClause before after name' :=
      fun before after name' heq => not_packageClause_iff.1 (find_eq_none_iff.1 hfind before after heq) name'
    rw [Option.map_none, Option.getD_none]
    constructor
    · rintro (⟨before, after, heq, hclause, -⟩ | ⟨rfl, -⟩)
      · exact absurd hclause (hnone before after name heq)
      · rfl
    · rintro rfl
      exact .inr ⟨rfl, hnone⟩
  | some found =>
    obtain ⟨place, read⟩ := found
    obtain ⟨rest, heq, hread, hfirst⟩ := find_eq_some_iff.1 hfind
    have hclause := packageWords_eq_some_iff.1 hread
    rw [Option.map_some, Option.getD_some]
    constructor
    · rintro (⟨before, after, heq', hclause', hfirst'⟩ | ⟨-, hnone⟩)
      · have hle : place.length ≤ before.length := not_lt.1 fun hlt =>
          not_packageClause_iff.1 (hfirst before after heq' hlt) name hclause'
        have hge : before.length ≤ place.length := not_lt.1 fun hlt => hfirst' place rest read heq hlt hclause
        obtain ⟨rfl, rfl⟩ := List.append_inj (heq.symm.trans heq') (le_antisymm hle hge)
        rw [packageWords_eq_some_iff.2 hclause'] at hread
        exact (Option.some.inj hread).symm
      · exact absurd hclause (hnone place rest read heq)
    · rintro rfl
      exact .inl ⟨place, rest, heq, hclause, fun before' after' name' heq' hlt =>
        not_packageClause_iff.1 (hfirst before' after' heq' hlt) name'⟩

/-! ### Names in a text -/

theorem lastIndexOf_of_short {name value : List Char} (h : value.length < name.length) : lastIndexOf name value = none := by
  induction value with
  | nil =>
    rw [lastIndexOf, if_neg]
    rintro rfl
    exact absurd h (Nat.not_lt_zero _)
  | cons c value ih =>
    rw [lastIndexOf, ih (Nat.lt_of_succ_lt h)]
    cases hdrop : dropFront name (c :: value) with
    | none => rfl
    | some rest =>
      rw [dropFront_eq_some_iff.1 hdrop, List.length_append] at h
      omega

/-- A name that ends a text stands last at the end. -/
theorem lastIndexOf_append (l name : List Char) : lastIndexOf name (l ++ name) = some l.length := by
  induction l with
  | nil =>
    have hdrop : dropFront name name = some [] := dropFront_eq_some_iff.2 (List.append_nil name).symm
    cases name with
    | nil => rfl
    | cons c name =>
      rw [List.nil_append, lastIndexOf, lastIndexOf_of_short (Nat.lt_succ_self _), hdrop]
      rfl
  | cons c l ih =>
    rw [List.cons_append, lastIndexOf, ih]
    rfl

theorem units_append (a b : List Char) : units (a ++ b) = units a + units b := by
  rw [units, units, units, List.map_append, List.sum_append]

theorem units_of_ascii {l : List Char} (h : ∀ c ∈ l, c.toNat < 128) : units l = l.length := by
  induction l with
  | nil => rfl
  | cons c l ih =>
    obtain ⟨hc, hl⟩ := List.forall_mem_cons.1 h
    have hone : units [c] = 1 := by
      rw [units, List.map_singleton, List.sum_singleton, if_pos (by omega)]
    rw [← List.singleton_append, units_append, ih hl, hone, List.length_append, List.length_singleton]

theorem word_ascii {c : Char} (h : isWord c = true) : c.toNat < 128 := by
  have hle : ∀ d : Char, c ≤ d → c.toNat ≤ d.toNat := fun d hd => UInt32.le_iff_toNat_le.1 hd
  unfold isWord isNameStart at h
  simp only [Bool.or_eq_true, Bool.and_eq_true, decide_eq_true_eq] at h
  rcases h with ((⟨-, hupper⟩ | ⟨-, hlower⟩) | rfl) | ⟨-, hdigit⟩
  · exact (hle 'Z' hupper).trans_lt (by decide)
  · exact (hle 'z' hlower).trans_lt (by decide)
  · decide
  · exact (hle '9' hdigit).trans_lt (by decide)

theorem space_ascii {c : Char} (h : isSpace c = true) : c.toNat < 128 := by
  unfold isSpace at h
  simp only [Bool.or_eq_true, decide_eq_true_eq] at h
  rcases h with ((((rfl | rfl) | rfl) | rfl) | rfl) | rfl <;> decide

variable (marked) in
/-- The name stands as a word behind `before`. -/
def WordAt (text name before : List Char) : Prop :=
  ∃ rest, text = before ++ (name ++ rest) ∧ boundary marked before (name ++ rest) = true ∧ boundary marked (before ++ name) rest = true

theorem wholeWord_eq_some_iff {name before after : List Char} {start : Nat} :
    wholeWord marked name start before after = some () ↔ start ≤ units before ∧ ∃ rest, after = name ++ rest ∧
      boundary marked before (name ++ rest) = true ∧ boundary marked (before ++ name) rest = true := by
  constructor
  · intro h
    unfold wholeWord at h
    split_ifs at h with hstart
    obtain ⟨rest, hrest, hend⟩ := Option.bind_eq_some_iff.1 h
    obtain rfl := dropFront_eq_some_iff.1 hrest
    split_ifs at hend with hboundary
    exact ⟨hstart.1, rest, rfl, hstart.2, hboundary⟩
  · rintro ⟨hstart, rest, rfl, hboundary, hend⟩
    rw [wholeWord, if_pos ⟨hstart, hboundary⟩, dropFront_eq_some_iff.2 rfl, Option.bind_some, if_pos hend]

theorem units_mono {text a b x y : List Char} (ha : text = a ++ x) (hb : text = b ++ y) (hle : a.length ≤ b.length) :
    units a ≤ units b := by
  obtain ⟨z, rfl⟩ := List.prefix_of_prefix_length_le ⟨x, ha.symm⟩ ⟨y, hb.symm⟩ hle
  rw [units_append]
  exact Nat.le_add_right _ _

variable (marked) in
/-- The offset of the first word from `start` on that is the name; `start` if there is none before `stop`. -/
def NameAt (text name : List Char) (start stop offset : Nat) : Prop :=
  (∃ before, WordAt marked text name before ∧ start ≤ units before ∧ units before < stop ∧ offset = units before ∧
    ∀ before', WordAt marked text name before' → start ≤ units before' → before.length ≤ before'.length) ∨
  (offset = start ∧ ∀ before, WordAt marked text name before → start ≤ units before → stop ≤ units before)

/-- **Name offset.** -/
theorem nameAt_iff {text name : List Char} {start stop offset : Nat} :
    NameAt marked text name start stop offset ↔ nameOffset marked text name start stop = offset := by
  unfold nameOffset
  cases hfind : find (wholeWord marked name start) [] text with
  | none =>
    have hnone : ∀ before, WordAt marked text name before → start ≤ units before → False := by
      rintro before ⟨rest, htext, hboundary, hend⟩ hstart
      have := find_eq_none_iff.1 hfind before _ htext
      rw [wholeWord_eq_some_iff.2 ⟨hstart, rest, rfl, hboundary, hend⟩] at this
      cases this
    constructor
    · rintro (⟨before, hword, hstart, -⟩ | ⟨rfl, -⟩)
      · exact (hnone before hword hstart).elim
      · rfl
    · rintro rfl
      exact .inr ⟨rfl, fun before hword hstart => (hnone before hword hstart).elim⟩
  | some found =>
    obtain ⟨place, u⟩ := found
    obtain ⟨after, htext, hplace, hfirst⟩ := find_eq_some_iff.1 hfind
    obtain ⟨hstart, rest, rfl, hboundary, hend⟩ := wholeWord_eq_some_iff.1 hplace
    have hword : WordAt marked text name place := ⟨rest, htext, hboundary, hend⟩
    have hleast : ∀ before, WordAt marked text name before → start ≤ units before → place.length ≤ before.length := by
      rintro before ⟨rest', htext', hboundary', hend'⟩ hstart'
      by_contra hlt
      have := hfirst before _ htext' (not_le.1 hlt)
      rw [wholeWord_eq_some_iff.2 ⟨hstart', rest', rfl, hboundary', hend'⟩] at this
      cases this
    have hunits : ∀ before, WordAt marked text name before → start ≤ units before → units place ≤ units before := by
      rintro before ⟨rest', htext', hboundary', hend'⟩ hstart'
      exact units_mono htext htext' (hleast before ⟨rest', htext', hboundary', hend'⟩ hstart')
    dsimp only
    by_cases hstop : units place < stop
    · rw [if_pos hstop]
      constructor
      · rintro (⟨before, hword', hstart', -, rfl, hleast'⟩ | ⟨-, hnone⟩)
        · have hle := hunits before hword' hstart'
          obtain ⟨rest', htext', -⟩ := hword'
          exact le_antisymm hle (units_mono htext' htext (hleast' place hword hstart))
        · exact absurd hstop (not_lt.2 (hnone place hword hstart))
      · rintro rfl
        exact .inl ⟨place, hword, hstart, hstop, rfl, hleast⟩
    · rw [if_neg hstop]
      constructor
      · rintro (⟨before, hword', hstart', hstop', -, -⟩ | ⟨rfl, -⟩)
        · exact absurd ((hunits before hword' hstart').trans_lt hstop') hstop
        · rfl
      · rintro rfl
        exact .inr ⟨rfl, fun before hword' hstart' => (not_lt.1 hstop).trans (hunits before hword' hstart')⟩

end

end JavaSemanticExtractor

end Kide
