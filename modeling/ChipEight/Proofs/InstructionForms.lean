import ChipEight.Proofs.Cycle
import ChipEight.Text.Numeral
import Mathlib.Data.List.Forall2

set_option autoImplicit false

namespace ChipEight

namespace Word

def digits (w : Word) : List Nat :=
  [w.toNat / 4096, w.toNat / 256 % 16, w.toNat / 16 % 16, w.toNat % 16]

/-- A character of a form allows a digit. Small letters allow all digits. -/
def Allows (c : Char) (d : Nat) : Prop := ∀ v ∈ Hex.value? c, v = d

instance decidableAllows (c : Char) (d : Nat) : Decidable (Allows c d) :=
  inferInstanceAs (Decidable (∀ v ∈ Hex.value? c, v = d))

def HasForm (w : Word) (form : String) : Prop := List.Forall₂ Allows form.toList w.digits

instance decidableHasForm (w : Word) (form : String) : Decidable (w.HasForm form) :=
  inferInstanceAs (Decidable (List.Forall₂ _ _ _))

def HasAny (w : Word) (forms : List String) : Prop := ∃ form ∈ forms, w.HasForm form

instance decidableHasAny (w : Word) (forms : List String) : Decidable (w.HasAny forms) :=
  inferInstanceAs (Decidable (∃ form ∈ forms, w.HasForm form))

example : HasForm 0x8AB6 "8xy6" ∧ ¬ HasForm 0x8AB6 "8xyE" := by decide

def clash (form form' : String) : Bool :=
  (form.toList.zip form'.toList).any fun (c, c') =>
    match Hex.value? c, Hex.value? c' with
    | some v, some v' => v != v'
    | _, _ => false

theorem exists_allowed {cs cs' : List Char} {ds : List Nat} (h : List.Forall₂ Allows cs ds)
    (h' : List.Forall₂ Allows cs' ds) {c c' : Char} (both : (c, c') ∈ cs.zip cs') :
    ∃ d, Allows c d ∧ Allows c' d := by
  induction h generalizing cs' with
  | nil => simp at both
  | cons first _ ih =>
    cases h' with
    | cons first' rest' =>
      rcases List.mem_cons.1 both with here | later
      · obtain ⟨rfl, rfl⟩ := Prod.mk.inj here
        exact ⟨_, first, first'⟩
      · exact ih rest' later

theorem not_hasForm_of_clash {w : Word} {form form' : String} (clashes : clash form form' = true)
    (h : w.HasForm form) : ¬ w.HasForm form' := by
  intro h'
  obtain ⟨⟨c, c'⟩, both, differ⟩ := List.any_eq_true.1 clashes
  obtain ⟨d, allowed, allowed'⟩ := exists_allowed h h' both
  dsimp only at differ
  split at differ
  · rename_i v v' digit digit'
    simp [allowed v digit, allowed' v' digit'] at differ
  · simp at differ

theorem digits_ofDigits {f : Nat} (h : f < 16) (x y d : Fin 16) :
    (ofDigits f x y d).digits = [f, x.val, y.val, d.val] := by
  simp only [digits, toNat_ofDigits h, List.cons.injEq, and_true]
  omega

theorem digits_ofByte {f : Nat} (h : f < 16) (x : Fin 16) (b : UInt8) :
    (ofByte f x b).digits = [f, x.val, b.toNat / 16, b.toNat % 16] := by
  have := b.toNat_lt
  simp only [digits, toNat_ofByte h, List.cons.injEq, and_true]
  omega

theorem digits_ofAddress {f : Nat} (h : f < 16) (a : Address) :
    (ofAddress f a).digits = [f, a.val / 256, a.val / 16 % 16, a.val % 16] := by
  simp only [digits, toNat_ofAddress h, List.cons.injEq, and_true]
  omega

theorem toNat_byte (w : Word) : w.byte.toNat = w.toNat / 16 % 16 * 16 + w.toNat % 16 := by
  simp only [byte, UInt8.toNat_ofNat']
  omega

end Word

theorem Arithmetic.val_code (op : Arithmetic) : op.code.val = match op with
    | copy => 0
    | or => 1
    | and => 2
    | xor => 3
    | add => 4
    | subtract => 5
    | shiftRight => 6
    | subtractFrom => 7
    | shiftLeft => 14 := by
  cases op <;> rfl

namespace Instruction

/-- The instruction set. A small letter stands for a digit of an operand. -/
def forms : List String := [
  "00E0", "00EE", "1nnn", "2nnn", "3xkk", "4xkk", "5xy0", "6xkk", "7xkk",
  "8xy0", "8xy1", "8xy2", "8xy3", "8xy4", "8xy5", "8xy6", "8xy7", "8xyE", "9xy0",
  "Annn", "Bnnn", "Cxkk", "Dxyn", "Ex9E", "ExA1",
  "Fx07", "Fx0A", "Fx15", "Fx18", "Fx1E", "Fx29", "Fx33", "Fx55", "Fx65"]

theorem clash_of_ne : ∀ form ∈ forms, ∀ form' ∈ forms, form ≠ form' →
    Word.clash form form' = true := by
  decide +kernel

def form : Instruction → String
  | clear => "00E0"
  | ret => "00EE"
  | jump _ => "1nnn"
  | call _ => "2nnn"
  | skipIfByte _ _ => "3xkk"
  | skipUnlessByte _ _ => "4xkk"
  | skipIfSame _ _ => "5xy0"
  | setByte _ _ => "6xkk"
  | addByte _ _ => "7xkk"
  | combine .copy _ _ => "8xy0"
  | combine .or _ _ => "8xy1"
  | combine .and _ _ => "8xy2"
  | combine .xor _ _ => "8xy3"
  | combine .add _ _ => "8xy4"
  | combine .subtract _ _ => "8xy5"
  | combine .shiftRight _ _ => "8xy6"
  | combine .subtractFrom _ _ => "8xy7"
  | combine .shiftLeft _ _ => "8xyE"
  | skipUnlessSame _ _ => "9xy0"
  | setIndex _ => "Annn"
  | jumpOffset _ => "Bnnn"
  | random _ _ => "Cxkk"
  | draw _ _ _ => "Dxyn"
  | skipIfKey _ => "Ex9E"
  | skipUnlessKey _ => "ExA1"
  | readDelay _ => "Fx07"
  | awaitKey _ => "Fx0A"
  | setDelay _ => "Fx15"
  | setSound _ => "Fx18"
  | addIndex _ => "Fx1E"
  | glyph _ => "Fx29"
  | decimal _ => "Fx33"
  | save _ => "Fx55"
  | restore _ => "Fx65"

theorem form_mem_forms (i : Instruction) : i.form ∈ forms := by
  cases i with
  | combine op => cases op <;> simp [form, forms]
  | _ => simp [form, forms]

theorem hasForm_encode (i : Instruction) : i.encode.HasForm i.form := by
  cases i with
  | clear | ret => simp [Word.HasForm, Word.digits, form, encode, Word.Allows, Hex.value?]
  | jump | call | setIndex | jumpOffset =>
    simp [Word.HasForm, form, encode, Word.Allows, Hex.value?, Word.digits_ofAddress]
  | combine op =>
    cases op <;>
      simp [Word.HasForm, form, encode, Word.Allows, Hex.value?, Word.digits_ofDigits,
        Arithmetic.val_code]
  | skipIfSame | skipUnlessSame | draw =>
    simp [Word.HasForm, form, encode, Word.Allows, Hex.value?, Word.digits_ofDigits]
  | _ => simp [Word.HasForm, form, encode, Word.Allows, Hex.value?, Word.digits_ofByte]

theorem hasForm_encode_iff {i : Instruction} {form : String} (listed : form ∈ forms) :
    i.encode.HasForm form ↔ form = i.form := by
  constructor
  · intro has
    by_contra other
    have clashes := clash_of_ne form listed i.form i.form_mem_forms other
    exact Word.not_hasForm_of_clash clashes has i.hasForm_encode
  · rintro rfl
    exact i.hasForm_encode

theorem hasAny_encode {i : Instruction} {chosen : List String} (h : i.form ∈ chosen) :
    i.encode.HasAny chosen := ⟨i.form, h, i.hasForm_encode⟩

theorem decodeKey_eq_none {x : Fin 16} {n : Nat} (h : decodeKey x n = none) :
    n ≠ 0x9E ∧ n ≠ 0xA1 := by
  unfold decodeKey at h
  split at h <;> simp_all

theorem decodeRegister_eq_none {x : Fin 16} {n : Nat} (h : decodeRegister x n = none) :
    n ∉ [0x07, 0x0A, 0x15, 0x18, 0x1E, 0x29, 0x33, 0x55, 0x65] := by
  unfold decodeRegister at h
  split at h <;> simp_all

end Instruction

theorem Arithmetic.ofCode_eq_none {d : Fin 16} (h : ofCode d = none) : 8 ≤ d.val ∧ d.val ≠ 14 := by
  revert d
  decide

namespace Instruction

theorem not_hasForm_of_unread {w : Word} (unread : decode w = none) :
    ∀ form ∈ forms, ¬ w.HasForm form := by
  have byte := w.toNat_byte
  have digit : w.digit.val = w.toNat % 16 := rfl
  have family : w.family = w.toNat / 4096 := rfl
  simp only [forms, List.forall_mem_cons, Word.HasForm, Word.digits, String.reduceToList,
    List.forall₂_cons, List.forall₂_nil_left_iff, Word.Allows, Hex.value?, Char.reduceLE,
    Char.reduceToNat, and_self, and_true, true_and, and_false, if_true, if_false, Nat.reduceSub,
    Option.mem_def, Option.some.injEq, forall_eq', reduceCtorEq, false_implies, implies_true,
    List.not_mem_nil]
  unfold decode at unread
  split at unread
  case h_1 =>
    split at unread
    · simp at unread
    · rename_i clears
      split at unread
      · simp at unread
      · rename_i returns
        have clears : w.toNat ≠ 0x00E0 := fun h => clears (UInt16.toNat.inj h)
        have returns : w.toNat ≠ 0x00EE := fun h => returns (UInt16.toNat.inj h)
        omega
  case h_6 | h_10 =>
    split at unread
    · simp at unread
    · rename_i last
      have last : w.digit.val ≠ 0 := fun h => last (Fin.ext h)
      omega
  case h_9 =>
    have last := Arithmetic.ofCode_eq_none (Option.map_eq_none_iff.1 unread)
    omega
  case h_15 =>
    have low := decodeKey_eq_none unread
    omega
  case h_16 =>
    have low := decodeRegister_eq_none unread
    simp only [List.mem_cons, not_or, List.not_mem_nil] at low
    omega
  case h_17 =>
    have bound := w.family_lt
    grind
  all_goals simp at unread

end Instruction

def Word.Listed (w : Word) : Prop := w.HasAny Instruction.forms

theorem Instruction.listed_encode (i : Instruction) : i.encode.Listed :=
  hasAny_encode i.form_mem_forms

theorem Instruction.decode_eq_none_iff {w : Word} : decode w = none ↔ ¬ w.Listed := by
  constructor
  · rintro unread ⟨form, listed, has⟩
    exact not_hasForm_of_unread unread form listed has
  · intro unlisted
    cases read : decode w with
    | none => rfl
    | some i =>
      obtain rfl := eq_encode_of_decode read
      exact absurd i.listed_encode unlisted

theorem Instruction.exists_of_listed {w : Word} (listed : w.Listed) :
    ∃ i : Instruction, w = i.encode := by
  cases read : decode w with
  | none => exact absurd listed (decode_eq_none_iff.1 read)
  | some i => exact ⟨i, eq_encode_of_decode read⟩

theorem Instruction.exists_of_hasForm {w : Word} {form : String} (listed : form ∈ forms)
    (has : w.HasForm form) : ∃ i : Instruction, w = i.encode ∧ i.form = form := by
  obtain ⟨i, rfl⟩ := exists_of_listed ⟨form, listed, has⟩
  exact ⟨i, rfl, ((hasForm_encode_iff listed).1 has).symm⟩

namespace Machine

variable {δ : Type} [Display δ]

theorem skipped_of_read {m : Machine δ} {i : Instruction} (fetched : m.core.fetch = i.encode) :
    m.cycle.state.core.skipped = m.core.skipped := by
  have ended := m.cycled
  generalize m.cycle = o at ended ⊢
  cases ended with
  | waits | misses | refuses => rfl
  | skips _ unread =>
    rw [fetched, Instruction.decode_encode] at unread
    simp at unread
  | executes _ _ executed => exact Core.skipped_execute executed

/-- The count of skipped words grows with the words that are not listed. Such a word changes nothing
but the count and the program counter, and it is logged if that was asked for. A listed word leaves
the count alone, also when it is refused. -/
theorem cycle_counts_unlisted (m : Machine δ) (w : Word) (awake : m.core.wait = none)
    (stands : w.toNat = (m.core.memory.get (Fin.ofNat 4096 m.core.pc)).toNat * 256 +
      (m.core.memory.get (Fin.ofNat 4096 (m.core.pc + 1))).toNat) :
    (m.cycle.state.core.skipped = m.core.skipped + 1 ↔ ¬ w.Listed) ∧
    (¬ w.Listed → m.cycle = .done { m with
      core := { m.core with pc := m.core.pc + 2, skipped := m.core.skipped + 1 }
      log := if m.settings.reportSkipped then m.log.push (.wordSkipped w m.core.pc) else m.log }) ∧
    (w.Listed → m.cycle.state.core.skipped = m.core.skipped) := by
  have fetched : m.core.fetch = w := by
    apply UInt16.toNat.inj
    rw [stands, Core.fetch, Memory.toNat_word]
    rfl
  have skips : ¬ w.Listed → m.cycle = .done { m with
      core := { m.core with pc := m.core.pc + 2, skipped := m.core.skipped + 1 }
      log := if m.settings.reportSkipped then m.log.push (.wordSkipped w m.core.pc)
        else m.log } := by
    intro unlisted
    rw [← fetched] at unlisted ⊢
    rw [cycle_of_unread awake (Instruction.decode_eq_none_iff.2 unlisted), skipWord_eq]
    rfl
  have counts : w.Listed → m.cycle.state.core.skipped = m.core.skipped := by
    intro listed
    obtain ⟨i, rfl⟩ := Instruction.exists_of_listed listed
    exact skipped_of_read fetched
  refine ⟨⟨fun grown listed => ?_, fun unlisted => ?_⟩, skips, counts⟩
  · rw [counts listed] at grown
    omega
  · rw [skips unlisted]
    rfl

theorem cycle_counts_unlisted_at_edge :
    let odd := poised { Core.powerOn with pc := 0xFFF } 0x8AB8
    let loud := { odd with settings := ⟨true, false, false, false⟩ }
    let full : CallStack := ⟨Vector.replicate 16 0x2FE, 16⟩
    let refused := poised { Core.powerOn with stack := full } 0x2345
    ¬ Word.Listed 0x8AB8 ∧ Word.Listed 0x2345 ∧
      loud.cycle = .done { loud with
        core := { loud.core with pc := 0x1001, skipped := 1 }
        log := #[.wordSkipped 0x8AB8 0xFFF] } ∧
      refused.cycle.fault = some (.stackOverflow 0x345 0x200) ∧
      refused.cycle.state.core.skipped = 0 := by
  intro odd loud full refused
  have unlisted : ¬ Word.Listed 0x8AB8 := Instruction.decode_eq_none_iff.1 rfl
  have listed : Word.Listed 0x2345 := (Instruction.call 0x345).listed_encode
  obtain ⟨_, skips, _⟩ := cycle_counts_unlisted loud 0x8AB8 rfl (by decide +kernel)
  obtain ⟨_, _, counts⟩ := cycle_counts_unlisted refused 0x2345 rfl (by decide +kernel)
  have failed : refused.cycle.fault = some (.stackOverflow 0x345 0x200) := by decide +kernel
  exact ⟨unlisted, listed, skips unlisted, failed, counts listed⟩

end Machine

end ChipEight
