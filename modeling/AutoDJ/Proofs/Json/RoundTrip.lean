import AutoDJ.Json.Printer
import AutoDJ.Json.Reader
import AutoDJ.Proofs.Json.Numeral
import AutoDJ.Proofs.Json.Quoted

/-!
This module contains the proof that a JSON value is read back from the text that it is written as, in either
layout.

Where a number ends can only be told from what comes after it. The main statement is therefore about a value that
is followed by the rest of a text.
-/

namespace AutoDJ.Json

inductive Value.WellFormed : Value → Prop where
  | null : WellFormed .null
  | bool (b : Bool) : WellFormed (.bool b)
  | number {literal : String} (h : Numeral.IsWritten literal.toList) : WellFormed (.number literal)
  | string (text : String) : WellFormed (.string (some text))
  | array {items : List Value} (h : ∀ item ∈ items, WellFormed item) : WellFormed (.array items)
  | object {members : List (Quotation × Value)} (hnames : ∀ member ∈ members, member.1.isSome = true)
    (h : ∀ member ∈ members, WellFormed member.2)
    : WellFormed (.object members)

def isDelimiter (c : Char) : Bool :=
  isSpace c || c == ',' || c == ']' || c == '}'

/--
A text that ends a number before it.
-/
def EndsValue (cs : List Char) : Prop :=
  ∀ c ∈ cs.head?, isDelimiter c = true

namespace Numeral

variable {numeral : Numeral} {c : Char}

theorem next?_delimiter (h : isDelimiter c = true) : numeral.next? c = none := by
  simp only [isDelimiter, isSpace, Bool.or_eq_true, beq_iff_eq, or_assoc] at h
  obtain rfl | rfl | rfl | rfl | rfl | rfl | rfl := h <;> cases numeral <;> rfl

theorem start?_some (h : start? c = some numeral) : c = '-' ∨ c.isDigit = true := by
  unfold start? at h
  split at h
  . next hminus => exact .inl hminus
  . split at h
    . next hzero => exact .inr (hzero ▸ rfl)
    . split at h
      . next hdigit => exact .inr hdigit
      . contradiction

end Numeral

def Phase.isBetween : Phase → Bool
  | .word .. | .number .. | .quoted .. | .quotedName .. => false
  | _ => true

namespace Reader

variable {stack : List Slot} {rest cs : List Char} {c : Char}

def finish? (r : Reader) (cs : List Char) : Option Value :=
  (cs.foldlM next? r).bind result?

theorem read?_eq_finish? (text : String) : read? text = finish? {} text.toList :=
  rfl

theorem finish?_cons (r : Reader) (c : Char) (cs : List Char)
    : r.finish? (c :: cs) = (r.next? c).bind fun r => r.finish? cs := by
  unfold finish?
  rw [List.foldlM_cons, Option.bind_eq_bind, Option.bind_assoc]

theorem finish?_of_next? {r r' : Reader} (h : r.next? c = some r') (cs : List Char)
    : r.finish? (c :: cs) = r'.finish? cs := by
  rw [finish?_cons, h, Option.bind_some]

section Spaces

variable {phase : Phase}

theorem next?_space (h : phase.isBetween = true) (hc : isSpace c = true)
    : next? { phase, stack } c = some { phase, stack } := by
  cases phase <;> simp_all [Phase.isBetween, next?, continue?]

theorem finish?_lineBreak (h : phase.isBetween = true) (layout : Layout) (depth : Nat) (cs : List Char)
    : finish? { phase, stack } (layout.lineBreak depth ++ cs) = finish? { phase, stack } cs := by
  have hreplicate (n : Nat)
      : finish? { phase, stack } (List.replicate n ' ' ++ cs) = finish? { phase, stack } cs := by
    induction n with
    | zero => rfl
    | succ n ih => rw [List.replicate_succ, List.cons_append, finish?_of_next? (next?_space h rfl), ih]
  cases layout with
  | singleLine => rfl
  | indented =>
    unfold Layout.lineBreak
    rw [List.cons_append, finish?_of_next? (next?_space h rfl), hreplicate]

end Spaces

section Numbers

variable {numeral : Numeral} {chars : List Char}

theorem next?_complete (value : Value) (stack : List Slot) (c : Char)
    : (complete value stack).next? c
        = continue? (complete value stack).phase (complete value stack).stack c := by
  cases stack <;> rfl

theorem finish?_number (hcomplete : numeral.isComplete = true) (hrest : EndsValue rest)
    : finish? { phase := .number numeral chars, stack } rest
        = (complete (numberValue chars) stack).finish? rest := by
  cases rest with
  | nil => cases stack <;> simp [finish?, result?, complete, hcomplete]
  | cons c rest =>
    have hnone : numeral.next? c = none := Numeral.next?_delimiter (hrest c rfl)
    have hnext : next? { phase := .number numeral chars, stack } c
        = (complete (numberValue chars) stack).next? c := by
      rw [next?_complete]
      simp [next?, hnone, hcomplete]
    rw [finish?_cons, finish?_cons, hnext]

theorem finish?_digits {numeral' : Numeral} (h : cs.foldlM Numeral.next? numeral = some numeral')
    (chars rest : List Char)
    : finish? { phase := .number numeral chars, stack } (cs ++ rest)
        = finish? { phase := .number numeral' (cs.reverse ++ chars), stack } rest := by
  induction cs generalizing numeral chars with
  | nil =>
    obtain rfl := Option.some.inj h
    rfl
  | cons c cs ih =>
    rw [List.foldlM_cons] at h
    obtain ⟨next, hnext, hcs⟩ := Option.bind_eq_some_iff.mp h
    have hstep : next? { phase := .number numeral chars, stack } c
        = some { phase := .number next (c :: chars), stack } := by
      simp [next?, hnext]
    rw [List.cons_append, finish?_of_next? hstep, ih hcs, List.reverse_cons, List.append_assoc]
    rfl

theorem isSpace_of_start? (h : Numeral.start? c = some numeral) : isSpace c = false := by
  rw [Bool.eq_false_iff]
  intro hspace
  simp only [isSpace, Bool.or_eq_true, beq_iff_eq, or_assoc] at hspace
  obtain rfl | rfl | rfl | rfl := hspace <;> contradiction

theorem start?_of_numeral (h : Numeral.start? c = some numeral)
    : start? stack c = some { phase := .number numeral [c], stack } := by
  unfold start?
  split
  any_goals contradiction
  rw [h, Option.map_some]

theorem finish?_writtenNumber {literal : String} (h : Numeral.IsWritten literal.toList)
    (hrest : EndsValue rest)
    : finish? { phase := .value, stack } (literal.toList ++ rest)
        = (complete (.number literal) stack).finish? rest := by
  obtain ⟨numeral, hread, hcomplete⟩ := h
  cases hliteral : literal.toList with
  | nil => simp [hliteral, Numeral.read?] at hread
  | cons c cs =>
    rw [hliteral] at hread
    obtain ⟨start, hstart, hcs⟩ := Option.bind_eq_some_iff.mp hread
    have hfirst : next? { phase := .value, stack } c = some { phase := .number start [c], stack } := by
      simp [next?, isSpace_of_start? hstart, start?_of_numeral hstart]
    have hvalue : numberValue (cs.reverse ++ [c]) = .number literal := by
      simp [numberValue, ← hliteral]
    rw [List.cons_append, finish?_of_next? hfirst, finish?_digits hcs, finish?_number hcomplete hrest,
      hvalue]

end Numbers

section Strings

variable {reading reading' : Quoted.Reading} {done : List (Quotation × Value)}

theorem finish?_reading (place : Quoted.Reading → Reader)
    (hplace : ∀ reading c, reading.isClosedBy c = false
      → (place reading).next? c = (reading.next? c).map place)
    (h : cs.foldlM Quoted.Reading.goOn? reading = some reading') (rest : List Char)
    : (place reading).finish? (cs ++ rest) = (place reading').finish? rest := by
  induction cs generalizing reading with
  | nil =>
    obtain rfl := Option.some.inj h
    rfl
  | cons c cs ih =>
    rw [List.foldlM_cons] at h
    obtain ⟨next, hnext, hcs⟩ := Option.bind_eq_some_iff.mp h
    unfold Quoted.Reading.goOn? at hnext
    split at hnext
    . contradiction
    . next hopen =>
      have hstep : (place reading).next? c = some (place next) := by
        rw [hplace reading c (by simpa using hopen), hnext, Option.map_some]
      rw [List.cons_append, finish?_of_next? hstep, ih hcs]

theorem result_read (text : String)
    : ({ chars := some (text.toList.reverse ++ []) } : Quoted.Reading).result = some text := by
  simp [Quoted.Reading.result]

theorem finish?_string (text : String) (rest : List Char)
    : finish? { phase := .value, stack } (Quoted.write text ++ rest)
        = (complete (.string (some text)) stack).finish? rest := by
  have hquote : next? { phase := .value, stack } '"' = some { phase := .quoted {}, stack } := rfl
  have hclose : next? { phase := .quoted { chars := some (text.toList.reverse ++ []) }, stack } '"'
      = some (complete (.string (some text)) stack) := by
    simp [next?, Quoted.Reading.isClosedBy, ← result_read text]
  unfold Quoted.write
  rw [List.cons_append, List.cons_append, finish?_of_next? hquote, List.append_assoc,
    finish?_reading (fun reading => { phase := .quoted reading, stack }) ?_
      (Quoted.Reading.foldlM_escape text.toList []),
    List.cons_append, finish?_of_next? hclose, List.nil_append]
  intro reading c hopen
  simp [next?, hopen]

theorem finish?_memberName (name : String) (rest : List Char)
    : finish? { phase := .name done, stack } (Quoted.write name ++ rest)
        = finish? { phase := .colon done (some name), stack } rest := by
  have hquote : next? { phase := .name done, stack } '"' = some { phase := .quotedName done {}, stack } := rfl
  have hclose : next? { phase := .quotedName done { chars := some (name.toList.reverse ++ []) }, stack } '"'
      = some { phase := .colon done (some name), stack } := by
    simp [next?, Quoted.Reading.isClosedBy, ← result_read name]
  unfold Quoted.write
  rw [List.cons_append, List.cons_append, finish?_of_next? hquote, List.append_assoc,
    finish?_reading (fun reading => { phase := .quotedName done reading, stack }) ?_
      (Quoted.Reading.foldlM_escape name.toList []),
    List.cons_append, finish?_of_next? hclose, List.nil_append]
  intro reading c hopen
  simp [next?, hopen]

end Strings

def ReadsBack (value : Value) : Prop :=
  ∀ (layout : Layout) (depth : Nat) (stack : List Slot) (rest : List Char), EndsValue rest
    → finish? { phase := .value, stack } (value.write layout depth ++ rest)
        = (complete value stack).finish? rest

section Containers

variable {layout : Layout} {depth : Nat} {value : Value} {items : List Value}
variable {members : List (Quotation × Value)}

theorem complete_item (value : Value) (done : List Value) (stack : List Slot)
    : complete value (.item done :: stack) = { phase := .comma (.array (value :: done)), stack } :=
  rfl

theorem complete_member (value : Value) (done : List (Quotation × Value)) (name : Quotation)
    (stack : List Slot)
    : complete value (.member done name :: stack)
        = { phase := .comma (.object ((name, value) :: done)), stack } :=
  rfl

theorem endsValue_lineBreak (h : isDelimiter c = true) (layout : Layout) (depth : Nat) (rest : List Char)
    : EndsValue (layout.lineBreak depth ++ c :: rest) := by
  cases layout with
  | singleLine => simpa [EndsValue, Layout.lineBreak] using h
  | indented => simp [EndsValue, Layout.lineBreak, isDelimiter, isSpace]

theorem endsValue_items (hrest : EndsValue rest)
    : EndsValue (Value.writeItems layout depth items ++ rest) := by
  cases items with
  | nil => exact hrest
  | cons item items => simp [Value.writeItems, EndsValue, isDelimiter]

theorem endsValue_members (hrest : EndsValue rest)
    : EndsValue (Value.writeMembers layout depth members ++ rest) := by
  cases members with
  | nil => exact hrest
  | cons member members => simp [Value.writeMembers, EndsValue, isDelimiter]

theorem write_head (h : value.WellFormed) (layout : Layout) (depth : Nat)
    : ∃ c cs, value.write layout depth = c :: cs ∧ isSpace c = false ∧ c ≠ ']' := by
  cases h with
  | null => exact ⟨_, _, rfl, rfl, by decide⟩
  | bool b => cases b <;> exact ⟨_, _, rfl, rfl, by decide⟩
  | @number literal h =>
    obtain ⟨numeral, hread, -⟩ := h
    cases hliteral : literal.toList with
    | nil => simp [hliteral, Numeral.read?] at hread
    | cons c cs =>
      rw [hliteral] at hread
      obtain ⟨start, hstart, -⟩ := Option.bind_eq_some_iff.mp hread
      refine ⟨c, cs, by rw [Value.write, hliteral], isSpace_of_start? hstart, ?_⟩
      rintro rfl
      contradiction
  | string text => exact ⟨_, _, rfl, rfl, by decide⟩
  | @array items h => cases items <;> exact ⟨_, _, rfl, rfl, by decide⟩
  | @object members hnames h => cases members <;> exact ⟨_, _, rfl, rfl, by decide⟩

theorem finish?_items (h : ∀ item ∈ items, ReadsBack item) (done : List Value) (hrest : EndsValue rest)
    : finish? { phase := .comma (.array done), stack } (Value.writeItems layout depth items ++ rest)
        = finish? { phase := .comma (.array (items.reverse ++ done)), stack } rest := by
  induction items generalizing done with
  | nil => rfl
  | cons item items ih =>
    obtain ⟨hitem, hitems⟩ := List.forall_mem_cons.mp h
    have hcomma : next? { phase := .comma (.array done), stack } ','
        = some { phase := .value, stack := .item done :: stack } := rfl
    simp only [Value.writeItems, List.cons_append, List.append_assoc]
    rw [finish?_of_next? hcomma, finish?_lineBreak rfl,
      hitem layout depth _ _ (endsValue_items hrest), complete_item, ih hitems]
    simp

theorem finish?_member (h : ReadsBack value) (name : String) (done : List (Quotation × Value))
    (hrest : EndsValue rest)
    : finish? { phase := .name done, stack }
          (Value.writeMember layout depth (some name, value) ++ rest)
        = finish? { phase := .comma (.object ((some name, value) :: done)), stack } rest := by
  have hcolon (cs : List Char) : finish? { phase := .colon done (some name), stack } (layout.colon ++ cs)
      = finish? { phase := .value, stack := .member done (some name) :: stack } cs := by
    have hnext : next? { phase := .colon done (some name), stack } ':'
        = some { phase := .value, stack := .member done (some name) :: stack } := rfl
    cases layout with
    | singleLine => exact finish?_of_next? hnext cs
    | indented => exact (finish?_of_next? hnext _).trans (finish?_of_next? (next?_space rfl rfl) cs)
  rw [Value.writeMember, List.append_assoc, List.append_assoc, writeQuotation, Option.getD_some,
    finish?_memberName, hcolon, h layout depth _ _ hrest, complete_member]

theorem finish?_members (hnames : ∀ member ∈ members, member.1.isSome = true)
    (h : ∀ member ∈ members, ReadsBack member.2) (done : List (Quotation × Value)) (hrest : EndsValue rest)
    : finish? { phase := .comma (.object done), stack } (Value.writeMembers layout depth members ++ rest)
        = finish? { phase := .comma (.object (members.reverse ++ done)), stack } rest := by
  induction members generalizing done with
  | nil => rfl
  | cons member members ih =>
    obtain ⟨hname, hothers⟩ := List.forall_mem_cons.mp hnames
    obtain ⟨hmember, hmembers⟩ := List.forall_mem_cons.mp h
    obtain ⟨name, value⟩ := member
    obtain ⟨name, rfl⟩ := Option.isSome_iff_exists.mp hname
    have hcomma : next? { phase := .comma (.object done), stack } ','
        = some { phase := .name done, stack } := rfl
    simp only [Value.writeMembers, List.cons_append, List.append_assoc]
    rw [finish?_of_next? hcomma, finish?_lineBreak rfl,
      finish?_member hmember _ _ (endsValue_members hrest), ih hothers hmembers]
    simp

theorem readsBack_array (hwell : ∀ item ∈ items, item.WellFormed) (h : ∀ item ∈ items, ReadsBack item)
    : ReadsBack (.array items) := by
  intro layout depth stack rest hrest
  have hopen : next? { phase := .value, stack } '[' = some { phase := .firstItem, stack } := rfl
  cases items with
  | nil => rfl
  | cons item items =>
    obtain ⟨hitem, hitems⟩ := List.forall_mem_cons.mp h
    obtain ⟨c, cs, hwrite, hspace, hbracket⟩ :=
      write_head (hwell item List.mem_cons_self) layout (depth + 1)
    have hclose : next? { phase := .comma (.array (items.reverse ++ [item])), stack } ']'
        = some (complete (.array (item :: items)) stack) := by
      simp [next?, continue?, isSpace]
    have hends : EndsValue (layout.lineBreak depth ++ ']' :: rest) := endsValue_lineBreak rfl _ _ _
    -- the first item is read as if it came after a comma
    have hfirst (cs : List Char) : finish? { phase := .firstItem, stack } (c :: cs)
        = finish? { phase := .value, stack := .item [] :: stack } (c :: cs) := by
      simp [finish?_cons, next?, hspace, hbracket]
    have hnext : EndsValue (Value.writeItems layout (depth + 1) items ++ _) := endsValue_items hends
    have hitem := hitem layout (depth + 1) (.item [] :: stack) _ hnext
    rw [hwrite] at hitem
    simp only [Value.write, List.cons_append, List.append_assoc, List.nil_append]
    rw [finish?_of_next? hopen, finish?_lineBreak rfl, hwrite, List.cons_append,
      hfirst, ← List.cons_append, hitem, complete_item, finish?_items hitems [item] hends,
      finish?_lineBreak rfl, finish?_of_next? hclose]

theorem readsBack_object (hnames : ∀ member ∈ members, member.1.isSome = true)
    (h : ∀ member ∈ members, ReadsBack member.2) : ReadsBack (.object members) := by
  intro layout depth stack rest hrest
  have hopen : next? { phase := .value, stack } '{' = some { phase := .firstName, stack } := rfl
  cases members with
  | nil => rfl
  | cons member members =>
    obtain ⟨hname, hothers⟩ := List.forall_mem_cons.mp hnames
    obtain ⟨hmember, hmembers⟩ := List.forall_mem_cons.mp h
    obtain ⟨name, value⟩ := member
    obtain ⟨name, rfl⟩ := Option.isSome_iff_exists.mp hname
    have hclose : next? { phase := .comma (.object (members.reverse ++ [(some name, value)])), stack } '}'
        = some (complete (.object ((some name, value) :: members)) stack) := by
      simp [next?, continue?, isSpace]
    have hends : EndsValue (layout.lineBreak depth ++ '}' :: rest) := endsValue_lineBreak rfl _ _ _
    -- the first name is read as if it came after a comma
    have hfirst (cs : List Char)
        : finish? { phase := .firstName, stack }
            (Value.writeMember layout (depth + 1) (some name, value) ++ cs)
          = finish? { phase := .name [], stack }
            (Value.writeMember layout (depth + 1) (some name, value) ++ cs) :=
      rfl
    simp only [Value.write, List.cons_append, List.append_assoc, List.nil_append]
    rw [finish?_of_next? hopen, finish?_lineBreak rfl, hfirst,
      finish?_member hmember name [] (endsValue_members hends), finish?_members hothers hmembers _ hends,
      finish?_lineBreak rfl, finish?_of_next? hclose]

end Containers

theorem readsBack {value : Value} (h : value.WellFormed) : ReadsBack value := by
  induction h with
  | null => exact fun _ _ _ _ _ => rfl
  | bool b => cases b <;> exact fun _ _ _ _ _ => rfl
  | number h => exact fun _ _ _ _ hrest => finish?_writtenNumber h hrest
  | string text => exact fun _ _ _ rest _ => finish?_string text rest
  | array h ih => exact readsBack_array h ih
  | object hnames _ ih => exact readsBack_object hnames ih

end Reader

namespace Value

variable {value : Value}

theorem read?_write (h : value.WellFormed) (layout : Layout)
    : read? (String.ofList (value.write layout 0)) = some value := by
  have hread := Reader.readsBack h layout 0 [] [] (by simp [EndsValue])
  rw [List.append_nil] at hread
  rw [Reader.read?_eq_finish?, String.toList_ofList]
  exact hread

theorem read?_compact (h : value.WellFormed) : read? value.compact = some value :=
  read?_write h .singleLine

theorem read?_pretty (h : value.WellFormed) : read? value.pretty = some value :=
  read?_write h .indented

end Value

end AutoDJ.Json
