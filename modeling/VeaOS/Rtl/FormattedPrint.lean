import Mathlib.Data.BitVec
import Mathlib.Data.Nat.Digits.Lemmas

/-! Formatted printing. The format is the text in front of the terminating NUL with that NUL behind
it, and whoever reads behind the NUL has no result. -/
namespace VeaOS.Rtl.Print

open Function List

abbrev Byte := BitVec 8

def ch (c : Char) : Byte := BitVec.ofNat 8 c.toNat

/-- The characters of a string in front of its terminating NUL. -/
structure CString where
  text : List Byte
  plain : 0 ∉ text

/-- What the arguments point to. A counted string is `none` where its address or its buffer is NULL. -/
structure Memory where
  string : BitVec 32 → CString
  ansi : BitVec 32 → Option (List Byte)
  unicode : BitVec 32 → Option (List (BitVec 16))

section Conversions

def chars (isUpper : Bool) : List Char := (if isUpper then "0123456789ABCDEF" else "0123456789abcdef").toList

/-- The digits that the division loop leaves in `Temp`, turned around. -/
def rtlIntegerToString (value : BitVec 32) (base : Nat) (isUpper : Bool) : List Byte :=
  if value = 0 then [ch '0']
  else (Nat.digits base value.toNat).reverse.map fun digit => ch ((chars isUpper).getD digit '0')

/-- Flags and width. `IsLong` is not kept, since nothing reads it. -/
structure FieldSpec where
  padZero : Bool
  leftAlign : Bool
  width : BitVec 32
  isWide : Bool

def scanFlags (padZero leftAlign : Bool) : List Byte → (Bool × Bool) × List Byte
  | [] => ((padZero, leftAlign), [])
  | c :: p =>
    if c = ch '0' then scanFlags true leftAlign p
    else if c = ch '-' then scanFlags padZero true p
    else ((padZero, leftAlign), c :: p)

def scanWidth (width : BitVec 32) : List Byte → BitVec 32 × List Byte
  | [] => (width, [])
  | c :: p =>
    if ch '0' ≤ c ∧ c ≤ ch '9' then scanWidth (width * 10 + (c - ch '0').setWidth 32) p else (width, c :: p)

def scanModifier : List Byte → Bool × List Byte
  | [] => (false, [])
  | c :: p => if c = ch 'l' then (false, p) else if c = ch 'w' then (true, p) else (false, c :: p)

/-- What stands between a percent sign and the character of its conversion. -/
def scanField (p : List Byte) : FieldSpec × List Byte :=
  let flags := scanFlags false false p
  let width := scanWidth 0 flags.2
  let modifier := scanModifier width.2
  (⟨flags.1.1 && !flags.1.2, flags.1.2, width.1, modifier.1⟩, modifier.2)

/-- The sign or the base in front of a number, and its digits. -/
def numberParts (conversion : Byte) (value : BitVec 32) : List Byte × List Byte :=
  if conversion = ch 'd' then
    if value.slt 0 then ([ch '-'], rtlIntegerToString (-value) 10 false)
    else ([], rtlIntegerToString value 10 false)
  else if conversion = ch 'u' then ([], rtlIntegerToString value 10 false)
  else
    (if conversion = ch 'p' then [ch '0', ch 'x'] else [],
      rtlIntegerToString value 16 (conversion = ch 'X' ∨ conversion = ch 'p'))

def isNumber (conversion : Byte) : Bool :=
  conversion = ch 'd' || conversion = ch 'u' || conversion = ch 'x' || conversion = ch 'X' || conversion = ch 'p'

/-- `pad` characters, none when it is negative. -/
def padding (pad : BitVec 32) (c : Char) : List Byte := List.replicate pad.toInt.toNat (ch c)

/-- The characters of the counted string at an address, the low bytes of its units if it is wide. -/
def countedText (m : Memory) (field : FieldSpec) (address : BitVec 32) : Option (List Byte) :=
  if field.isWide then (m.unicode address).map fun units => units.map fun unit => (unit &&& 0xFF).setWidth 8
  else m.ansi address

def stringText (m : Memory) (address : BitVec 32) : List Byte :=
  if address = 0 then "(null)".toList.map ch else (m.string address).text

end Conversions

section Output

/-- The memory from the destination on, and how much of it is written. -/
structure Output where
  dest : Nat → Byte
  written : Nat

/-- `Dest[Written++] = c`. -/
def Output.put (o : Output) (c : Byte) : Output := ⟨Function.update o.dest o.written c, o.written + 1⟩

/-- A loop that writes characters while there is room. -/
def putAll (cbDest : Nat) : List Byte → Output → Output
  | [], o => o
  | c :: text, o => if o.written < cbDest - 1 then putAll cbDest text (o.put c) else o

/-- A text and the spaces on one side of it. -/
def putAligned (cbDest : Nat) (field : FieldSpec) (text : List Byte) (o : Output) : Output :=
  let pad := padding (field.width - BitVec.ofNat 32 text.length) ' '
  let o := if !field.leftAlign then putAll cbDest pad o else o
  let o := putAll cbDest text o
  if field.leftAlign then putAll cbDest pad o else o

def putNumber (cbDest : Nat) (field : FieldSpec) (parts : List Byte × List Byte) (o : Output) : Output :=
  let pad := field.width - BitVec.ofNat 32 (parts.1.length + parts.2.length)
  let o := if !field.leftAlign && !field.padZero then putAll cbDest (padding pad ' ') o else o
  let o := putAll cbDest parts.1 o
  let o := if !field.leftAlign && field.padZero then putAll cbDest (padding pad '0') o else o
  let o := putAll cbDest parts.2 o
  if field.leftAlign then putAll cbDest (padding pad ' ') o else o

/-- The `switch` over the character of a conversion, with the arguments that it leaves. -/
def putConversion (m : Memory) (cbDest : Nat) (field : FieldSpec) (conversion : Byte) (args : Nat → BitVec 32)
    (o : Output) : Output × (Nat → BitVec 32) :=
  let next := fun i => args (i + 1)
  if conversion = ch 'c' then (putAligned cbDest field [(args 0).setWidth 8] o, next)
  else if conversion = ch 's' then (putAligned cbDest field (stringText m (args 0)) o, next)
  else if isNumber conversion then (putNumber cbDest field (numberParts conversion (args 0)) o, next)
  else if conversion = ch 'Z' then
    match countedText m field (args 0) with
    | none => (o, next)
    | some text => (putAligned cbDest field text o, next)
  else if conversion = ch '%' then (o.put (ch '%'), args)
  else
    let o := o.put (ch '%')
    (if o.written < cbDest - 1 then o.put conversion else o, args)

end Output

section Scan
variable {p : List Byte}

theorem scanFlags_suffix (padZero leftAlign : Bool) (p : List Byte) : (scanFlags padZero leftAlign p).2 <:+ p := by
  induction p generalizing padZero leftAlign with
  | nil => exact suffix_refl _
  | cons c p ih =>
    rw [scanFlags]
    split
    · exact (ih ..).trans (suffix_cons c p)
    · split
      · exact (ih ..).trans (suffix_cons c p)
      · exact suffix_refl _

theorem scanWidth_suffix (width : BitVec 32) (p : List Byte) : (scanWidth width p).2 <:+ p := by
  induction p generalizing width with
  | nil => exact suffix_refl _
  | cons c p ih =>
    rw [scanWidth]
    split
    · exact (ih _).trans (suffix_cons c p)
    · exact suffix_refl _

theorem scanModifier_suffix (p : List Byte) : (scanModifier p).2 <:+ p := by
  cases p with
  | nil => exact suffix_refl _
  | cons c p =>
    rw [scanModifier]
    split
    · exact suffix_cons c p
    · split
      · exact suffix_cons c p
      · exact suffix_refl _

theorem scanField_suffix (p : List Byte) : (scanField p).2 <:+ p :=
  ((scanModifier_suffix _).trans (scanWidth_suffix ..)).trans (scanFlags_suffix ..)

theorem scanField_following {field : FieldSpec} {conversion : Byte} {rest : List Byte}
    (scanned : scanField p = (field, conversion :: rest)) : conversion :: rest <:+ p := by
  have suffix := scanField_suffix p
  rwa [scanned] at suffix

theorem scanField_shorter {field : FieldSpec} {conversion : Byte} {rest : List Byte}
    (scanned : scanField p = (field, conversion :: rest)) : rest.length < p.length :=
  (scanField_following scanned).length_le

theorem scanFlags_terminated (padZero leftAlign : Bool) (p : List Byte) :
    scanFlags padZero leftAlign (p ++ [0]) =
      ((scanFlags padZero leftAlign p).1, (scanFlags padZero leftAlign p).2 ++ [0]) := by
  induction p generalizing padZero leftAlign with
  | nil => rfl
  | cons c p ih =>
    rw [cons_append, scanFlags, scanFlags]
    split
    · exact ih ..
    · split
      · exact ih ..
      · rfl

theorem scanWidth_terminated (width : BitVec 32) (p : List Byte) :
    scanWidth width (p ++ [0]) = ((scanWidth width p).1, (scanWidth width p).2 ++ [0]) := by
  induction p generalizing width with
  | nil => rfl
  | cons c p ih =>
    rw [cons_append, scanWidth, scanWidth]
    split
    · exact ih _
    · rfl

theorem scanModifier_terminated (p : List Byte) :
    scanModifier (p ++ [0]) = ((scanModifier p).1, (scanModifier p).2 ++ [0]) := by
  cases p with
  | nil => rfl
  | cons c p =>
    rw [cons_append, scanModifier, scanModifier]
    split
    · rfl
    · split <;> rfl

theorem scanField_terminated (p : List Byte) : scanField (p ++ [0]) = ((scanField p).1, (scanField p).2 ++ [0]) := by
  simp only [scanField, scanFlags_terminated, scanWidth_terminated, scanModifier_terminated]

end Scan

section Print

/-- The loop over the format from `p` on. -/
def printLoop (m : Memory) (cbDest : Nat) (p : List Byte) (args : Nat → BitVec 32) (o : Output) : Option Output :=
  match p with
  | [] => none
  | c :: p =>
    if c = 0 ∨ ¬ o.written < cbDest - 1 then some o
    else if c ≠ ch '%' then printLoop m cbDest p args (o.put c)
    else
      match _scanned : scanField p with
      | (_, []) => none
      | (field, conversion :: rest) =>
        let put := putConversion m cbDest field conversion args o
        printLoop m cbDest rest put.2 put.1
termination_by p.length
decreasing_by
  · exact Nat.lt_succ_self _
  · exact Nat.lt_succ_of_lt (scanField_shorter _scanned)

/-- What is returned, and the memory from the destination on. -/
def rtlStringCbPrintfAImpl (m : Memory) (dest : Nat → Byte) (cbDest : Nat) (format : CString)
    (args : Nat → BitVec 32) : Option (Nat × (Nat → Byte)) :=
  (printLoop m cbDest (format.text ++ [0]) args ⟨dest, 0⟩).map fun o =>
    (o.written, Function.update o.dest o.written 0)

end Print

section Expansion

def alignedText (field : FieldSpec) (text : List Byte) : List Byte :=
  let pad := padding (field.width - BitVec.ofNat 32 text.length) ' '
  if field.leftAlign then text ++ pad else pad ++ text

def numberText (field : FieldSpec) (parts : List Byte × List Byte) : List Byte :=
  let pad := field.width - BitVec.ofNat 32 (parts.1.length + parts.2.length)
  if field.leftAlign then parts.1 ++ parts.2 ++ padding pad ' '
  else if field.padZero then parts.1 ++ padding pad '0' ++ parts.2
  else padding pad ' ' ++ parts.1 ++ parts.2

/-- What a conversion stands for, and how many arguments it takes. -/
def conversionText (m : Memory) (field : FieldSpec) (conversion : Byte) (arg : BitVec 32) : List Byte × Nat :=
  if conversion = ch 'c' then (alignedText field [arg.setWidth 8], 1)
  else if conversion = ch 's' then (alignedText field (stringText m arg), 1)
  else if isNumber conversion then (numberText field (numberParts conversion arg), 1)
  else if conversion = ch 'Z' then (((countedText m field arg).map (alignedText field)).getD [], 1)
  else if conversion = ch '%' then ([ch '%'], 0)
  else ([ch '%', conversion], 0)

/-- The full expansion of a format, as far as it goes, and whether it is cut off inside a conversion. -/
def expansion (m : Memory) (text : List Byte) (args : Nat → BitVec 32) : List Byte × Bool :=
  match text with
  | [] => ([], false)
  | c :: text =>
    if c ≠ ch '%' then
      let rest := expansion m text args
      (c :: rest.1, rest.2)
    else
      match _scanned : scanField text with
      | (_, []) => ([], true)
      | (field, conversion :: following) =>
        let here := conversionText m field conversion (args 0)
        let rest := expansion m following fun i => args (i + here.2)
        (here.1 ++ rest.1, rest.2)
termination_by text.length
decreasing_by
  · exact Nat.lt_succ_self _
  · exact Nat.lt_succ_of_lt (scanField_shorter _scanned)

end Expansion

section Room
variable {m : Memory} {cbDest : Nat} {field : FieldSpec} {conversion : Byte} {args : Nat → BitVec 32} {o : Output}

@[simp] theorem Output.put_written (o : Output) (c : Byte) : (o.put c).written = o.written + 1 := rfl

@[simp] theorem Output.put_dest (o : Output) (c : Byte) : (o.put c).dest = update o.dest o.written c := rfl

def Output.printed (o : Output) : List Byte := (List.range o.written).map o.dest

@[simp] theorem Output.printed_length (o : Output) : o.printed.length = o.written := by simp [printed]

theorem Output.printed_put (o : Output) (c : Byte) : (o.put c).printed = o.printed ++ [c] := by
  simp only [printed, put_written, put_dest, range_succ, map_append, map_singleton,
    update_self]
  refine congrArg (· ++ [c]) (map_congr_left fun i member => ?_)
  exact update_of_ne (mem_range.mp member).ne _ _

theorem putAll_full (full : ¬ o.written < cbDest - 1) (text : List Byte) : putAll cbDest text o = o := by
  cases text with
  | nil => rfl
  | cons c text => rw [putAll, if_neg full]

theorem putAll_append (a b : List Byte) (o : Output) :
    putAll cbDest (a ++ b) o = putAll cbDest b (putAll cbDest a o) := by
  induction a generalizing o with
  | nil => rfl
  | cons c a ih =>
    rw [cons_append, putAll, putAll]
    split
    · exact ih _
    · next full => exact (putAll_full full b).symm

theorem putAll_written (inside : o.written ≤ cbDest - 1) (text : List Byte) :
    (putAll cbDest text o).written = min (cbDest - 1) (o.written + text.length) := by
  induction text generalizing o with
  | nil => simp [putAll, inside]
  | cons c text ih =>
    rw [putAll, length_cons]
    split
    · next room =>
        rw [ih (by rw [Output.put_written]; exact room), Output.put_written]
        omega
    · omega

theorem putAll_printed (inside : o.written ≤ cbDest - 1) (text : List Byte) :
    (putAll cbDest text o).printed = (o.printed ++ text).take (cbDest - 1) := by
  induction text generalizing o with
  | nil =>
    rw [putAll, append_nil, take_of_length_le]
    rwa [Output.printed_length]
  | cons c text ih =>
    rw [putAll]
    split
    · next room =>
        rw [ih (by rw [Output.put_written]; exact room), Output.printed_put, append_assoc,
          singleton_append]
    · next full => rw [take_left' (by rw [Output.printed_length]; omega)]

theorem putAll_outside (text : List Byte) {i : Nat} (outside : cbDest - 1 ≤ i) :
    (putAll cbDest text o).dest i = o.dest i := by
  induction text generalizing o with
  | nil => rfl
  | cons c text ih =>
    rw [putAll]
    split
    · rw [ih, Output.put_dest]
      exact update_of_ne (by omega) _ _
    · rfl

theorem putAligned_eq : putAligned cbDest field text o = putAll cbDest (alignedText field text) o := by
  rw [putAligned, alignedText]
  cases field.leftAlign with
  | true | false => simp [putAll_append]

theorem putNumber_eq {parts : List Byte × List Byte} :
    putNumber cbDest field parts o = putAll cbDest (numberText field parts) o := by
  rw [putNumber, numberText]
  cases field.leftAlign with
  | true => simp [putAll_append]
  | false => cases field.padZero <;> simp [putAll_append]

theorem putConversion_eq (room : o.written < cbDest - 1) :
    putConversion m cbDest field conversion args o =
      (putAll cbDest (conversionText m field conversion (args 0)).1 o,
        fun i => args (i + (conversionText m field conversion (args 0)).2)) := by
  have percent : ∀ text, putAll cbDest (ch '%' :: text) o = putAll cbDest text (o.put (ch '%')) := fun text => by
    rw [putAll, if_pos room]
  rw [putConversion, conversionText]
  by_cases c : conversion = ch 'c'
  · simp only [if_pos c, putAligned_eq]
  by_cases string : conversion = ch 's'
  · simp only [if_neg c, if_pos string, putAligned_eq]
  by_cases number : isNumber conversion = true
  · simp only [if_neg c, if_neg string, if_pos number, putNumber_eq]
  by_cases counted : conversion = ch 'Z'
  · simp only [if_neg c, if_neg string, if_neg number, if_pos counted]
    cases countedText m field (args 0) with
    | none => rfl
    | some text => simp only [putAligned_eq, Option.map_some, Option.getD_some]
  by_cases sign : conversion = ch '%'
  · simp only [if_neg c, if_neg string, if_neg number, if_neg counted, if_pos sign, percent]
    rfl
  · simp only [if_neg c, if_neg string, if_neg number, if_neg counted, if_neg sign, percent]
    rfl

end Room

section Loop
variable {m : Memory} {cbDest : Nat} {args : Nat → BitVec 32} {o : Output} {text following : List Byte} {c : Byte}
  {field : FieldSpec} {conversion : Byte}

theorem printLoop_full (full : ¬ o.written < cbDest - 1) (c : Byte) (p : List Byte) :
    printLoop m cbDest (c :: p) args o = some o := by
  rw [printLoop, if_pos (.inr full)]

theorem printLoop_literal (plain : c ≠ 0) (room : o.written < cbDest - 1) (other : c ≠ ch '%') :
    printLoop m cbDest (c :: text) args o = printLoop m cbDest text args (o.put c) := by
  rw [printLoop, if_neg (not_or.mpr ⟨plain, not_not.mpr room⟩), if_pos other]

theorem printLoop_conversion (room : o.written < cbDest - 1)
    (scanned : scanField text = (field, conversion :: following)) :
    printLoop m cbDest (ch '%' :: text) args o =
      printLoop m cbDest following (fun i => args (i + (conversionText m field conversion (args 0)).2))
        (putAll cbDest (conversionText m field conversion (args 0)).1 o) := by
  rw [printLoop, if_neg (by simp [room, ch]), if_neg (by simp)]
  split
  · next other =>
      rw [scanned] at other
      cases other
  · next other =>
      rw [scanned] at other
      cases other
      simp only [putConversion_eq room]

theorem expansion_literal (other : c ≠ ch '%') : expansion m (c :: text) args =
    (c :: (expansion m text args).1, (expansion m text args).2) := by
  rw [expansion, if_pos other]

theorem expansion_conversion (scanned : scanField text = (field, conversion :: following)) :
    expansion m (ch '%' :: text) args =
      ((conversionText m field conversion (args 0)).1 ++
        (expansion m following fun i => args (i + (conversionText m field conversion (args 0)).2)).1,
      (expansion m following fun i => args (i + (conversionText m field conversion (args 0)).2)).2) := by
  rw [expansion, if_neg (by simp)]
  split
  · next other =>
      rw [scanned] at other
      cases other
  · next other =>
      rw [scanned] at other
      cases other
      rfl

theorem expansion_cut (scanned : scanField text = (field, [])) : expansion m (ch '%' :: text) args = ([], true) := by
  rw [expansion, if_neg (by simp)]
  split
  · rfl
  · next other =>
      rw [scanned] at other
      cases other

theorem printLoop_eq (plain : 0 ∉ text) (inside : o.written ≤ cbDest - 1) :
    printLoop m cbDest (text ++ [0]) args o =
      if (expansion m text args).2 = true ∧ o.written + (expansion m text args).1.length < cbDest - 1 then none
      else some (putAll cbDest (expansion m text args).1 o) := by
  obtain ⟨size, bound⟩ : ∃ size, text.length ≤ size := ⟨_, Nat.le_refl _⟩
  induction size generalizing text args o with
  | zero =>
    obtain rfl := length_eq_zero_iff.mp (Nat.le_zero.mp bound)
    rw [nil_append, printLoop, if_pos (.inl rfl), expansion, if_neg (by simp)]
    rfl
  | succ size ih =>
    cases text with
    | nil =>
      rw [nil_append, printLoop, if_pos (.inl rfl), expansion, if_neg (by simp)]
      rfl
    | cons c text =>
      rw [length_cons, Nat.succ_le_succ_iff] at bound
      simp only [mem_cons, not_or] at plain
      by_cases room : o.written < cbDest - 1
      swap
      · rw [cons_append, printLoop_full room, putAll_full room, if_neg (by omega)]
      by_cases other : c ≠ ch '%'
      · rw [cons_append, printLoop_literal (Ne.symm plain.1) room other, expansion_literal other,
          ih plain.2 (by rw [Output.put_written]; exact room) bound, putAll, if_pos room, Output.put_written,
          length_cons, Nat.add_assoc, Nat.add_comm 1]
      · obtain rfl := not_not.mp other
        have scan := scanField_terminated text
        cases scanned : scanField text with
        | mk field rest =>
          rw [scanned] at scan
          cases rest with
          | nil =>
            rw [cons_append, printLoop_conversion room scan, expansion_cut scanned, printLoop,
              if_pos ⟨rfl, room⟩]
          | cons conversion following =>
            simp only [cons_append] at scan
            have shorter := scanField_shorter scanned
            have plain' : 0 ∉ following := fun member =>
              plain.2 ((scanField_following scanned).subset (mem_cons_of_mem _ member))
            have written := putAll_written room.le (conversionText m field conversion (args 0)).1
            rw [cons_append, printLoop_conversion room scan, expansion_conversion scanned]
            refine (ih plain' (written.trans_le (Nat.min_le_left _ _)) (by omega)).trans ?_
            rw [putAll_append, written, length_append]
            refine ite_congr (propext (and_congr_right fun _ => ?_)) (fun _ => rfl) fun _ => rfl
            omega

end Loop

section Claim
variable {m : Memory} {dest : Nat → Byte} {cbDest : Nat} {format : CString} {args : Nat → BitVec 32}

/-- There is a result: nothing is read behind the format's terminator. Nothing is written outside the
destination, and its text is the expansion as far as it fits, with a NUL behind it. -/
def PrintsExpansion (m : Memory) (dest : Nat → Byte) (cbDest : Nat) (format : CString) (args : Nat → BitVec 32) :
    Prop :=
  ∃ written dest', rtlStringCbPrintfAImpl m dest cbDest format args = some (written, dest') ∧
    (∀ i, cbDest ≤ i → dest' i = dest i) ∧ written < cbDest ∧ dest' written = 0 ∧
    (List.range written).map dest' = (expansion m format.text args).1.take (cbDest - 1)

/-- The format does not end inside a conversion, or the destination is full before that conversion. -/
theorem prints_expansion_iff (positive : 1 ≤ cbDest) : PrintsExpansion m dest cbDest format args ↔
    (expansion m format.text args).2 = false ∨ cbDest - 1 ≤ (expansion m format.text args).1.length := by
  have start : (⟨dest, 0⟩ : Output).written ≤ cbDest - 1 := Nat.zero_le _
  rw [PrintsExpansion, rtlStringCbPrintfAImpl, printLoop_eq format.plain start]
  generalize expansion m format.text args = e
  simp only [Nat.zero_add]
  split
  · next cut =>
      refine iff_of_false ?_ ?_
      · rintro ⟨written, dest', none_, _⟩
        cases none_
      · rintro (whole | full)
        · rw [whole] at cut
          exact absurd cut.1 Bool.false_ne_true
        · omega
  · next fits =>
      refine iff_of_true ?_ ?_
      · have written := putAll_written start e.1
        have text := putAll_printed start e.1
        have outside : ∀ i, cbDest - 1 ≤ i → (putAll cbDest e.1 ⟨dest, 0⟩).dest i = dest i :=
          fun i => putAll_outside e.1
        generalize putAll cbDest e.1 ⟨dest, 0⟩ = o at written text outside
        have below : o.written < cbDest := by omega
        refine ⟨o.written, _, rfl, fun i behind => ?_, below, update_self .., ?_⟩
        · rw [update_of_ne (by omega), outside i (by omega)]
        · refine Eq.trans (map_congr_left fun i member => ?_) text
          exact update_of_ne (mem_range.mp member).ne _ _
      · rw [← Bool.not_eq_true, or_iff_not_imp_left, not_not]
        exact fun cut => Nat.le_of_not_lt fun room => fits ⟨cut, room⟩

def noMemory : Memory := ⟨fun _ => ⟨[], List.not_mem_nil⟩, fun _ => none, fun _ => none⟩

/-- `"%5d"` with 7, in four bytes. -/
theorem prints_expansion_iff_padded :
    PrintsExpansion noMemory (fun _ => 0) 4 ⟨[ch '%', ch '5', ch 'd'], by decide⟩ (fun _ => 7) := by
  have scanned : scanField [ch '5', ch 'd'] = (⟨false, false, 5, false⟩, [ch 'd']) := rfl
  refine (prints_expansion_iff (by decide)).mpr (.inl ?_)
  rw [expansion_conversion scanned, expansion]

/-- `"%"` is read behind its terminator. -/
theorem percent_overread : rtlStringCbPrintfAImpl noMemory (fun _ => 0) 8 ⟨[ch '%'], by decide⟩ (fun _ => 0) = none ∧
    ¬ PrintsExpansion noMemory (fun _ => 0) 8 ⟨[ch '%'], by decide⟩ (fun _ => 0) := by
  have scanned : scanField [] = (⟨false, false, 0, false⟩, []) := rfl
  have overread : rtlStringCbPrintfAImpl noMemory (fun _ => 0) 8 ⟨[ch '%'], by decide⟩ (fun _ => 0) = none := by
    rw [rtlStringCbPrintfAImpl, printLoop_eq (by decide) (by decide), expansion_cut scanned]
    rfl
  refine ⟨overread, ?_⟩
  rintro ⟨written, dest', some_, _⟩
  rw [overread] at some_
  cases some_

end Claim
end VeaOS.Rtl.Print
