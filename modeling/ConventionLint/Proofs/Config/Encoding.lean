import ConventionLint.Config.Fingerprint
import ConventionLint.Proofs.Config.Validity
import Mathlib.Algebra.Ring.Nat
import Mathlib.Data.List.Count

/-!
# What a fingerprint is the hash of

Each part of an encoding shows where it ends: a text by a byte that no text contains, all else by
its length. Only the overrides stand there in any number without that number in front. They end
where the next part begins, with a zero or a one; the code of a rule begins with neither.
-/
namespace ConventionLint

namespace Fingerprint

/-- Whatever follows, an encoding tells what is encoded and where that ends. -/
def Delimits {α : Type} (encode : α → List UInt8) : Prop :=
  ∀ ⦃a b : α⦄ ⦃x y : List UInt8⦄, encode a ++ x = encode b ++ y → a = b ∧ x = y

section

variable {α : Type} {encode : α → List UInt8} {as bs : List α} {x y : List UInt8}

theorem Delimits.flatMap (delimits : Delimits encode) (number : as.length = bs.length)
    (same : as.flatMap encode ++ x = bs.flatMap encode ++ y) : as = bs ∧ x = y := by
  induction as generalizing bs with
  | nil =>
    obtain rfl := List.length_eq_zero_iff.1 number.symm
    exact ⟨rfl, same⟩
  | cons a as ih =>
    cases bs with
    | nil => cases number
    | cons b bs =>
      rw [List.flatMap_cons, List.flatMap_cons, List.append_assoc, List.append_assoc] at same
      obtain ⟨rfl, behind⟩ := delimits same
      obtain ⟨rfl, rest⟩ := ih (Nat.succ.inj number) behind
      exact ⟨rfl, rest⟩

/-- Encodings in any number end where something begins with a byte that none of them begins with. -/
theorem Delimits.flatMap_until (delimits : Delimits encode) {ends : UInt8 → Prop}
    (begins : ∀ a, a ∈ as ∨ a ∈ bs → ∃ byte tail, encode a = byte :: tail ∧ ¬ ends byte)
    {last last' : UInt8} (ended : ends last) (ended' : ends last')
    (same : as.flatMap encode ++ last :: x = bs.flatMap encode ++ last' :: y) :
    as = bs ∧ last :: x = last' :: y := by
  induction as generalizing bs with
  | nil =>
    cases bs with
    | nil => exact ⟨rfl, same⟩
    | cons b bs =>
      obtain ⟨byte, tail, first, other⟩ := begins b (.inr (List.mem_cons_self ..))
      rw [List.flatMap_cons, first] at same
      exact absurd ((List.cons.inj same).1 ▸ ended) other
  | cons a as ih =>
    cases bs with
    | nil =>
      obtain ⟨byte, tail, first, other⟩ := begins a (.inl (List.mem_cons_self ..))
      rw [List.flatMap_cons, first] at same
      exact absurd ((List.cons.inj same).1 ▸ ended') other
    | cons b bs =>
      rw [List.flatMap_cons, List.flatMap_cons, List.append_assoc, List.append_assoc] at same
      obtain ⟨rfl, behind⟩ := delimits same
      have later (d) (member : d ∈ as ∨ d ∈ bs) :=
        begins d (member.imp (List.mem_cons_of_mem _) (List.mem_cons_of_mem _))
      obtain ⟨rfl, rest⟩ := ih later behind
      exact ⟨rfl, rest⟩

end

theorem toList_eq_data (bytes : ByteArray) : bytes.toList = bytes.data.toList := by
  have loop (i : Nat) (read : List UInt8) :
      ByteArray.toList.loop bytes i read = read.reverse ++ bytes.data.toList.drop i := by
    fun_induction ByteArray.toList.loop bytes i read with
    | case1 i read more ih =>
      have bound : i < bytes.data.toList.length := by simpa using more
      have byte : bytes.get! i = bytes.data.toList[i] := by
        rw [ByteArray.get!, Array.getElem_toList]
        exact getElem!_pos bytes.data i _
      rw [ih, List.drop_eq_getElem_cons bound, byte, List.reverse_cons, List.append_assoc]
      rfl
    | case2 i read done => rw [List.drop_eq_nil_of_le (by simpa using done), List.append_nil]
  rw [ByteArray.toList, loop]
  rfl

theorem bytes_eq_flatMap (s : String) :
    s.toUTF8.toList = s.toList.flatMap String.utf8EncodeChar := by
  rw [toList_eq_data, String.toUTF8, ← String.utf8Encode_toList, List.utf8Encode,
    List.data_toByteArray]

theorem bytes_inj {s t : String} (same : s.toUTF8.toList = t.toUTF8.toList) : s = t := by
  rw [toList_eq_data, toList_eq_data, Array.toList_inj] at same
  exact String.toByteArray_inj.1 (ByteArray.ext same)

theorem ne_ff_of_mem_utf8EncodeChar {c : Char} {byte : UInt8}
    (member : byte ∈ String.utf8EncodeChar c) : byte ≠ 0xff := by
  have small : byte.toNat < 255 := by
    simp only [String.utf8EncodeChar] at member
    split at member
    · simp only [List.mem_singleton] at member
      rw [member, UInt8.toNat_ofNat']
      omega
    · split at member
      · simp only [List.mem_cons, List.not_mem_nil, or_false] at member
        rcases member with rfl | rfl <;> rw [UInt8.toNat_ofNat'] <;> omega
      · split at member <;> simp only [List.mem_cons, List.not_mem_nil, or_false] at member
        · rcases member with rfl | rfl | rfl <;> rw [UInt8.toNat_ofNat'] <;> omega
        · rcases member with rfl | rfl | rfl | rfl <;> rw [UInt8.toNat_ofNat'] <;> omega
  rintro rfl
  exact absurd small (by decide)

theorem ff_notMem_bytes (s : String) : 0xff ∉ s.toUTF8.toList := by
  rw [bytes_eq_flatMap, List.mem_flatMap]
  rintro ⟨c, -, member⟩
  exact ne_ff_of_mem_utf8EncodeChar member rfl

theorem delimits_ofText : Delimits ofText := by
  intro s t x y same
  have before (s : String) (x : List UInt8) :
      (ofText s ++ x).takeWhile (· ≠ 0xff) = s.toUTF8.toList := by
    have kept : ∀ byte ∈ s.toUTF8.toList, decide (byte ≠ 0xff) = true := fun byte member =>
      decide_eq_true fun found => ff_notMem_bytes s (found ▸ member)
    rw [ofText, List.append_assoc, List.takeWhile_append_of_pos kept]
    simp
  obtain rfl : s = t := bytes_inj (by rw [← before s x, same, before])
  exact ⟨rfl, List.append_cancel_left same⟩

@[simp] theorem length_ofNat (n : Nat) : (ofNat n).length = 8 := by
  simp [ofNat]

/-- The value of bytes, the lowest first. -/
def valueOf (bytes : List UInt8) : Nat :=
  bytes.foldr (fun byte value => byte.toNat + 256 * value) 0

theorem valueOf_ofNat (n : Nat) : valueOf (ofNat n) = n % 2 ^ 64 := by
  simp only [ofNat, List.range, List.range.loop, List.map_cons, List.map_nil, valueOf,
    List.foldr_cons, List.foldr_nil, Nat.toUInt8, UInt8.toNat_ofNat', Nat.shiftRight_eq_div_pow]
  omega

theorem ofNat_append_inj {m n : Nat} {x y : List UInt8} (same : ofNat m ++ x = ofNat n ++ y) :
    m % 2 ^ 64 = n % 2 ^ 64 ∧ x = y := by
  obtain ⟨number, rest⟩ := List.append_inj same (by simp)
  exact ⟨by rw [← valueOf_ofNat, number, valueOf_ofNat], rest⟩

theorem delimits_ofBool : Delimits ofBool := by
  intro a b x y same
  obtain ⟨flag, rest⟩ := List.cons.inj same
  refine ⟨?_, rest⟩
  cases a <;> cases b <;> first | rfl | exact absurd flag (by decide)

theorem delimits_ofSeverity : Delimits ofSeverity := by
  intro a b x y same
  cases a <;> cases b <;> obtain ⟨number, rest⟩ := ofNat_append_inj same
  case warning.warning | error.error => exact ⟨rfl, rest⟩
  case warning.error | error.warning => cases number

theorem Delimits.ofOption {α : Type} {encode : α → List UInt8} (delimits : Delimits encode) :
    Delimits (Fingerprint.ofOption encode) := by
  intro a b x y same
  cases a with
  | none =>
    cases b with
    | none => exact ⟨rfl, (ofNat_append_inj same).2⟩
    | some b =>
      rw [Fingerprint.ofOption, Fingerprint.ofOption, List.append_assoc] at same
      cases (ofNat_append_inj same).1
  | some a =>
    cases b with
    | none =>
      rw [Fingerprint.ofOption, Fingerprint.ofOption, List.append_assoc] at same
      cases (ofNat_append_inj same).1
    | some b =>
      rw [Fingerprint.ofOption, Fingerprint.ofOption, List.append_assoc, List.append_assoc] at same
      obtain ⟨rfl, rest⟩ := delimits (ofNat_append_inj same).2
      exact ⟨rfl, rest⟩

theorem identities_append_inj {kinds : List MarkerKind} {f g : MarkerKind → String}
    {x y : List UInt8}
    (same : kinds.flatMap (fun kind => ofText kind.text ++ ofText (f kind)) ++ x =
      kinds.flatMap (fun kind => ofText kind.text ++ ofText (g kind)) ++ y) :
    (∀ kind ∈ kinds, f kind = g kind) ∧ x = y := by
  induction kinds with
  | nil => exact ⟨nofun, same⟩
  | cons kind kinds ih =>
    simp only [List.flatMap_cons, List.append_assoc] at same
    obtain ⟨identity, behind⟩ := delimits_ofText (delimits_ofText same).2
    obtain ⟨others, rest⟩ := ih behind
    exact ⟨List.forall_mem_cons.2 ⟨identity, others⟩, rest⟩

theorem delimits_ofMarkers : Delimits ofMarkers := by
  intro m n x y same
  simp only [ofMarkers, List.append_assoc] at same
  obtain ⟨identities, behind⟩ := identities_append_inj (ofNat_append_inj same).2
  obtain ⟨strict, rest⟩ := delimits_ofBool behind
  refine ⟨?_, rest⟩
  have root : m.root = n.root := identities .root (by decide)
  have command : m.command = n.command := identities .command (by decide)
  have event : m.event = n.event := identities .event (by decide)
  have useCase : m.useCase = n.useCase := identities .useCase (by decide)
  have businessRule : m.businessRule = n.businessRule := identities .businessRule (by decide)
  cases m
  cases n
  simp_all

theorem delimits_ofRule : Delimits fun rule : String × RuleOverride => ofRule rule.1 rule.2 := by
  rintro ⟨code, enabled, severity⟩ ⟨code', enabled', severity'⟩ x y same
  simp only [ofRule, List.append_assoc] at same
  obtain ⟨rfl, flagged⟩ := delimits_ofText same
  obtain ⟨rfl, leveled⟩ := delimits_ofBool flagged
  obtain ⟨rfl, rest⟩ := delimits_ofSeverity.ofOption leveled
  exact ⟨rfl, rest⟩

def IsFlag (byte : UInt8) : Prop :=
  byte = 0 ∨ byte = 1

theorem ofBool_cons (b : Bool) : ∃ byte, ofBool b = [byte] ∧ IsFlag byte := by
  cases b
  · exact ⟨0, rfl, .inl rfl⟩
  · exact ⟨1, rfl, .inr rfl⟩

theorem eq_or_eq_of_toLower {c : Char} (lower : c.toLower = 's') : c = 's' ∨ c = 'S' := by
  by_cases capital : c.val ≥ 'A'.val ∧ c.val ≤ 'Z'.val
  · have shifted : c.toLower.val = c.val + ('a'.val - 'A'.val) :=
      congrArg Char.val (dif_pos capital)
    rw [lower] at shifted
    exact .inr (Char.ext ((UInt32.add_left_inj ('a'.val - 'A'.val)).1 shifted.symm))
  · have same : c.toLower = c := dif_neg capital
    exact .inl (same ▸ lower)

theorem exists_cons_of_isRuleCode {code : String} (known : isRuleCode code = true) :
    ∃ c cs, code.toList = c :: cs ∧ (c = 's' ∨ c = 'S') := by
  obtain ⟨d, found, -⟩ := (Option.any_eq_true _ _).1 known
  have agrees := List.find?_some found
  have letters : d.code.toList.map Char.toLower = code.toList.map Char.toLower :=
    of_decide_eq_true agrees
  have letter : ∀ d ∈ Descriptor.catalog, (d.code.toList.map Char.toLower).head? = some 's' := by
    decide
  have first := letter d (List.mem_of_find?_eq_some found)
  rw [letters, List.head?_map, Option.map_eq_some_iff] at first
  obtain ⟨c, head, lower⟩ := first
  obtain ⟨cs, whole⟩ := List.head?_eq_some_iff.1 head
  exact ⟨c, cs, whole, eq_or_eq_of_toLower lower⟩

/-- The code of a rule begins with a letter and not with a flag. -/
theorem ofRule_cons {code : String} (o : RuleOverride) (known : isRuleCode code = true) :
    ∃ byte tail, ofRule code o = byte :: tail ∧ ¬ IsFlag byte := by
  obtain ⟨c, cs, whole, letter⟩ := exists_cons_of_isRuleCode known
  obtain ⟨byte, single, other⟩ : ∃ byte, String.utf8EncodeChar c = [byte] ∧ ¬ IsFlag byte := by
    rcases letter with rfl | rfl
    · exact ⟨0x73, by decide, by simp [IsFlag]⟩
    · exact ⟨0x53, by decide, by simp [IsFlag]⟩
  have begins : ofRule code o = byte :: (ofRule code o).tail := by
    rw [ofRule, ofText, bytes_eq_flatMap, whole, List.flatMap_cons, single]
    rfl
  exact ⟨byte, _, begins, other⟩

theorem count_ofText (s : String) : (ofText s).count 0xff = 1 := by
  rw [ofText, List.count_append, List.count_eq_zero_of_not_mem (ff_notMem_bytes s)]
  rfl

theorem count_texts (texts : List String) :
    (texts.flatMap ofText).count 0xff = texts.length := by
  simp [List.count_flatMap, count_ofText, Function.comp_def, List.map_const']

theorem count_ofOption (text : Option String) :
    (ofOption ofText text).count 0xff = text.toList.length := by
  cases text with
  | none => rfl
  | some s =>
    rw [ofOption, List.count_append, count_ofText]
    rfl

/-- The number of texts is known though its encoding takes it modulo the range of a word: texts
are counted by the bytes that end them, and at most one more text follows. -/
theorem texts_append_inj {as bs : List String} {a b : Option String}
    (same : ofNat as.length ++ as.flatMap ofText ++ ofOption ofText a =
      ofNat bs.length ++ bs.flatMap ofText ++ ofOption ofText b) : as = bs ∧ a = b := by
  rw [List.append_assoc, List.append_assoc] at same
  obtain ⟨number, behind⟩ := ofNat_append_inj same
  have counts := congrArg (List.count 0xff) behind
  simp only [List.count_append, count_texts, count_ofOption] at counts
  have length : as.length = bs.length := by
    have one (o : Option String) : o.toList.length ≤ 1 := by cases o <;> simp
    have := one a
    have := one b
    omega
  obtain ⟨texts, rest⟩ := delimits_ofText.flatMap length behind
  exact ⟨texts, (delimits_ofText.ofOption (congrArg (· ++ []) rest)).1⟩

end Fingerprint

open Fingerprint

/-- Encodings of valid configurations tell them apart in all but whether they run in parallel. -/
theorem Config.encoding_eq_iff {a b : Config} (validA : a.check = .ok ())
    (validB : b.check = .ok ()) :
    a.encoding = b.encoding ↔ { a with parallel := b.parallel } = b := by
  constructor
  · intro same
    have known : ∀ rule, rule ∈ a.rules ∨ rule ∈ b.rules → isRuleCode rule.1 = true := by
      rintro rule (member | member)
      · exact (isValid_of_check validA).rules rule member
      · exact (isValid_of_check validB).rules rule member
    obtain ⟨flag, reports, isFlag⟩ := ofBool_cons a.reportInternalErrors
    obtain ⟨flag', reports', isFlag'⟩ := ofBool_cons b.reportInternalErrors
    simp only [encoding, List.append_assoc] at same
    obtain ⟨version, marked⟩ := delimits_ofText same
    obtain ⟨markers, ruled⟩ := delimits_ofMarkers marked
    rw [reports, reports'] at ruled
    obtain ⟨rules, reported⟩ := delimits_ofRule.flatMap_until
      (fun rule member => ofRule_cons rule.2 (known rule member)) isFlag isFlag' ruled
    rw [← List.singleton_append, ← reports, ← List.singleton_append, ← reports'] at reported
    obtain ⟨report, filtered⟩ := delimits_ofBool reported
    obtain ⟨patterns, ignoreFile⟩ := texts_append_inj (by simpa using filtered)
    cases a
    cases b
    simp_all
  · intro same
    rw [← same]
    rfl

/-- The standard configuration with a rule switched off and an empty name for ignore files. -/
def Config.switchedOff (parallel : Bool) : Config :=
  { standard with rules := [("ss001", ⟨false, none⟩)], parallel, ignoreFile := some "" }

theorem Config.check_switchedOff (parallel : Bool) : (switchedOff parallel).check = .ok () := by
  have valid := isValid_of_check check_standard
  have known : ∀ rule ∈ (switchedOff parallel).rules, isRuleCode rule.1 = true := by
    simpa [switchedOff] using (by decide : isRuleCode "ss001" = true)
  exact checkWith_eq_ok_iff.2 ⟨valid.version, valid.markers, known, valid.patterns⟩

theorem Config.encoding_eq_iff_switchedOff :
    (switchedOff true).check = .ok () ∧ (switchedOff false).check = .ok () ∧
      standard.check = .ok () ∧ (switchedOff true).encoding = (switchedOff false).encoding ∧
      (switchedOff true).encoding ≠ standard.encoding := by
  have inParallel := check_switchedOff true
  have inOrder := check_switchedOff false
  refine ⟨inParallel, inOrder, check_standard, (encoding_eq_iff inParallel inOrder).2 rfl, ?_⟩
  intro same
  exact absurd ((encoding_eq_iff inParallel check_standard).1 same) (by decide)

end ConventionLint
