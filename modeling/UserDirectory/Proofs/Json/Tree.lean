import UserDirectory.Json.Tree
import UserDirectory.Proofs.Json.Token

/-!
# Written documents are read back

`Tree.text` writes a tree without blanks; `Tree.read?` cuts octets into tokens and builds a tree
from them with a stack of open containers. Both halves are proved for a tree in the middle of a
document, with anything before it and a delimiter after it: `scan_tokens` gives its tokens back
and `run_tokens` puts the tree itself where a value was awaited. The induction is on the tree,
with the items and members of a container beside it.

Main result: `read?_text`, for trees whose literals are those of the grammar (`Tree.WellFormed`).
-/

namespace UserDirectory.Json.Tree

/-! ## Trees that are found again -/

mutual

/-- A tree whose number literals are those of the grammar and whose strings and keys end where
they were closed. -/
def WellFormed : Tree → Prop
  | null => True
  | bool _ => True
  | number x => x.WellFormed
  | string raw => Quoted.Closed raw
  | array items => ItemsWellFormed items
  | object members => MembersWellFormed members

/-- Items that are well formed. -/
def ItemsWellFormed : List Tree → Prop
  | [] => True
  | t :: ts => WellFormed t ∧ ItemsWellFormed ts

/-- Members whose keys and values are well formed. -/
def MembersWellFormed : List (Octets × Tree) → Prop
  | [] => True
  | (key, t) :: ms => Quoted.Closed key ∧ WellFormed t ∧ MembersWellFormed ms

end

theorem itemsWellFormed_iff {ts : List Tree} : ItemsWellFormed ts ↔ ∀ t ∈ ts, WellFormed t := by
  induction ts with
  | nil => simp [ItemsWellFormed]
  | cons t ts ih => simp [ItemsWellFormed, ih]

/-! ## The tokens are read back -/

open Token (Delimited delimited_cons scanFrom scanFrom_text)

/-- The octets of tokens in a row. -/
def textOf (ts : List Token) : Octets := ts.flatMap Token.text

@[simp] theorem textOf_nil : textOf [] = [] := rfl

@[simp] theorem textOf_cons (t : Token) (ts : List Token) :
    textOf (t :: ts) = t.text ++ textOf ts := rfl

@[simp] theorem textOf_append (ts ts' : List Token) :
    textOf (ts ++ ts') = textOf ts ++ textOf ts' := by
  simp [textOf]

/-- What begins with a comma, a colon or a closing mark. -/
theorem delimited_comma (s : Octets) : Delimited (Token.comma.text ++ s) :=
  delimited_cons (by decide)

theorem delimited_closeBracket (s : Octets) : Delimited (Token.closeBracket.text ++ s) :=
  delimited_cons (by decide)

theorem delimited_closeBrace (s : Octets) : Delimited (Token.closeBrace.text ++ s) :=
  delimited_cons (by decide)

/-- A token that is no number is read whatever follows. -/
theorem scan_mark (t : Token) (ht : t.WellFormed) (hne : ∀ x, t ≠ .number x) (s : Octets)
    (read : List Token) : scanFrom read (t.text ++ s) = scanFrom (t :: read) s :=
  scanFrom_text ht (fun x hx => absurd hx (hne x)) read

/-- What stands before an item or a member: a comma, unless it is the first. -/
theorem scan_separator (first : Bool) (s : Octets) (read : List Token) :
    scanFrom read (textOf (if first then [] else [.comma]) ++ s) =
      scanFrom ((if first then [] else [.comma]) ++ read) s := by
  cases first with
  | true => rfl
  | false => exact scan_mark .comma trivial (by simp) s read

mutual

/-- The tokens of a tree are read back in the middle of a document. -/
theorem scan_tokens : ∀ (t : Tree), t.WellFormed → ∀ (read : List Token) (s : Octets),
    Delimited s → scanFrom read (textOf t.tokens ++ s) = scanFrom (t.tokens.reverse ++ read) s
  | null, _, read, s, _ => by
      simp only [tokens, textOf_cons, textOf_nil, List.append_nil]
      exact scan_mark .null trivial (by simp) s read
  | bool b, _, read, s, _ => by
      simp only [tokens, textOf_cons, textOf_nil, List.append_nil]
      exact scan_mark (.bool b) trivial (by simp) s read
  | number x, ht, read, s, hs => by
      simp only [tokens, textOf_cons, textOf_nil, List.append_nil]
      exact scanFrom_text (t := .number x) ht (fun _ _ => hs) read
  | string raw, ht, read, s, _ => by
      simp only [tokens, textOf_cons, textOf_nil, List.append_nil]
      exact scan_mark (.string raw) ht (by simp) s read
  | array items, ht, read, s, _ => by
      simp only [tokens, textOf_cons, textOf_append, textOf_nil, List.append_nil, List.append_assoc]
      rw [scan_mark .openBracket trivial (by simp),
        scan_itemTokens true items ht _ _ (delimited_closeBracket s),
        scan_mark .closeBracket trivial (by simp)]
      simp
  | object members, ht, read, s, _ => by
      simp only [tokens, textOf_cons, textOf_append, textOf_nil, List.append_nil, List.append_assoc]
      rw [scan_mark .openBrace trivial (by simp),
        scan_memberTokens true members ht _ _ (delimited_closeBrace s),
        scan_mark .closeBrace trivial (by simp)]
      simp

/-- So are those of the items of an array. -/
theorem scan_itemTokens : ∀ (first : Bool) (ts : List Tree), ItemsWellFormed ts →
    ∀ (read : List Token) (s : Octets), Delimited s →
    scanFrom read (textOf (itemTokens first ts) ++ s) =
      scanFrom ((itemTokens first ts).reverse ++ read) s
  | _, [], _, _, _, _ => rfl
  | first, t :: ts, h, read, s, hs => by
      have hrest : Delimited (textOf (itemTokens false ts) ++ s) := by
        cases ts with
        | nil => exact hs
        | cons t' ts => exact delimited_comma _
      simp only [itemTokens, textOf_append, List.append_assoc]
      rw [scan_separator, scan_tokens t h.1 _ _ hrest, scan_itemTokens false ts h.2 _ _ hs]
      cases first <;> simp

/-- And those of the members of an object. -/
theorem scan_memberTokens : ∀ (first : Bool) (ms : List (Octets × Tree)), MembersWellFormed ms →
    ∀ (read : List Token) (s : Octets), Delimited s →
    scanFrom read (textOf (memberTokens first ms) ++ s) =
      scanFrom ((memberTokens first ms).reverse ++ read) s
  | _, [], _, _, _, _ => rfl
  | first, (key, t) :: ms, h, read, s, hs => by
      have hrest : Delimited (textOf (memberTokens false ms) ++ s) := by
        cases ms with
        | nil => exact hs
        | cons m ms => exact delimited_comma _
      simp only [memberTokens, textOf_append, textOf_cons, List.append_assoc]
      rw [scan_separator, scan_mark (.string key) h.1 (by simp), scan_mark .colon trivial (by simp),
        scan_tokens t h.2.1 _ _ hrest, scan_memberTokens false ms h.2.2 _ _ hs]
      cases first <;> simp

end

/-! ## The tree is put together again -/

/-- The first item of an array starts like any value: what closes the array starts none. -/
theorem run_firstItem (t : Tree) (outer : List Frame) (k : List Token) :
    run outer .firstItem (t.tokens ++ k) = run (.array [] :: outer) .value (t.tokens ++ k) := by
  cases t <;> simp [tokens, run, step]

mutual

/-- Where a value is awaited, the tokens of a tree put the tree. -/
theorem run_tokens : ∀ (t : Tree) (outer : List Frame) (k : List Token),
    run outer .value (t.tokens ++ k) = run outer (.follow t) k
  | null, _, _ => rfl
  | bool _, _, _ => rfl
  | number _, _, _ => rfl
  | string _, _, _ => rfl
  | array [], _, _ => rfl
  | array (t :: ts), outer, k => by
      have hopen : run outer .value ((array (t :: ts)).tokens ++ k) =
          run (.array [] :: outer) .value
            (t.tokens ++ (itemTokens false ts ++ .closeBracket :: k)) := by
        simp only [tokens, itemTokens, List.cons_append, List.nil_append, List.append_assoc, run,
          step, stepValue, if_true]
        exact run_firstItem t outer _
      rw [hopen, run_tokens t, run_itemTokens ts]
      rfl
  | object [], _, _ => rfl
  | object ((key, t) :: ms), outer, k => by
      have hopen : run outer .value ((object ((key, t) :: ms)).tokens ++ k) =
          run (.object [] key :: outer) .value
            (t.tokens ++ (memberTokens false ms ++ .closeBrace :: k)) := by
        simp [tokens, memberTokens, run, step, stepValue]
      rw [hopen, run_tokens t, run_memberTokens ms]
      rfl

/-- Where a comma or the end is awaited, the remaining items and the end complete the array. -/
theorem run_itemTokens : ∀ (ts : List Tree) (done : List Tree) (last : Tree) (outer : List Frame)
    (k : List Token),
    run (.array done :: outer) (.follow last) (itemTokens false ts ++ .closeBracket :: k) =
      run outer (.follow (array (done.reverse ++ last :: ts))) k
  | [], done, last, outer, k => by simp [itemTokens, run, step]
  | t :: ts, done, last, outer, k => by
      simp only [itemTokens, Bool.false_eq_true, if_false, List.cons_append, List.nil_append,
        List.append_assoc]
      rw [run]
      simp only [step]
      rw [run_tokens t, run_itemTokens ts]
      simp

/-- So do the remaining members and the end of an object. -/
theorem run_memberTokens : ∀ (ms done : List (Octets × Tree)) (key : Octets) (last : Tree)
    (outer : List Frame) (k : List Token),
    run (.object done key :: outer) (.follow last) (memberTokens false ms ++ .closeBrace :: k) =
      run outer (.follow (object (done.reverse ++ (key, last) :: ms))) k
  | [], done, key, last, outer, k => by simp [memberTokens, run, step]
  | (key', t) :: ms, done, key, last, outer, k => by
      simp only [memberTokens, Bool.false_eq_true, if_false, List.cons_append, List.nil_append,
        List.append_assoc, run, step]
      rw [run_tokens t, run_memberTokens ms]
      simp

end

/-- **A document that was written is read back.** -/
theorem read?_text {t : Tree} (ht : t.WellFormed) : read? t.text = some t := by
  have hscan : Token.scan t.text = some t.tokens := by
    have h := scan_tokens t ht [] [] Token.delimited_nil
    rw [List.append_nil, List.append_nil] at h
    rw [Token.scan, show t.text = textOf t.tokens from rfl, h, scanFrom, List.reverse_reverse]
  have hrun := run_tokens t [] []
  rw [List.append_nil] at hrun
  rw [read?, hscan, Option.bind_some, ofTokens?, hrun]
  rfl

end UserDirectory.Json.Tree
