import Mprt.Decimal

/-!
# Times as text

A time in milliseconds is taken apart into hours, minutes, seconds and milliseconds, and each is
written with zeros in front behind its separator. Zero hours are not written.

A time is read back from its text: the text has three numbers or four, so the missing hours are
known. That is so for negative times too, each number of which has its own sign.
-/

namespace Mprt.TimeFormat

/-- A unit of time, the number of its characters, and what stands before it. -/
structure Format where
  denominator : Int
  width : Nat
  separator : List UInt8

/-- A number with zeros in front, as `setw` and `setfill` have it. -/
def filled (width : Nat) (number : Int) : List UInt8 :=
  List.replicate (width - (Decimal.text number).length) 48 ++ Decimal.text number

def colon : UInt8 := 58

def dot : UInt8 := 46

/-- `formats`: hours, minutes, seconds and milliseconds. -/
def formats : List Format :=
  [⟨3600000, 2, []⟩, ⟨60000, 2, [colon]⟩, ⟨1000, 2, [colon]⟩, ⟨1, 3, [dot]⟩]

/-- The body of the loop, with the time that remains and the text so far. -/
def write (state : Int × List UInt8) (format : Format) : Int × List UInt8 :=
  (state.1.tmod format.denominator,
    state.2 ++ format.separator ++ filled format.width (state.1.tdiv format.denominator))

def createTimeFormatString (time : Int) : List UInt8 :=
  let res := (formats.foldl write (time, [])).2
  -- no hours
  if res.take 3 = [48, 48, colon] then res.drop 3 else res

/-- `get_formatted_time` of a position of the slider. -/
def getFormattedTime (msecs : Int) : List UInt8 := createTimeFormatString msecs

/-! ## Reading a time -/

def isSeparator (byte : UInt8) : Bool := byte == colon || byte == dot

/-- The numbers in a text. -/
def numbers (text : List UInt8) : List Int := (text.splitOnP isSeparator).map Decimal.read

/-- Parts of some units as one time. -/
def total (parts : List Int) (formats : List Format) : Int :=
  (List.zipWith (fun part format => part * format.denominator) parts formats).foldr (· + ·) 0

/-- The time that a text says: three numbers are minutes, seconds and milliseconds. -/
def readTime (text : List UInt8) : Int :=
  let parts := if (numbers text).length = 3 then 0 :: numbers text else numbers text
  total parts formats

/-! ## The round trip -/

/-- What a time has of each unit. -/
def parts : List Format → Int → List Int
  | [], _ => []
  | format :: rest, time =>
      time.tdiv format.denominator :: parts rest (time.tmod format.denominator)

/-- The loop takes the time apart: the parts and what remains make the time. -/
theorem total_parts (formats : List Format) (time : Int) (text : List UInt8) :
    total (parts formats time) formats + (formats.foldl write (time, text)).1 = time := by
  induction formats generalizing time text with
  | nil => exact Int.zero_add time
  | cons format rest inductionHypothesis =>
    have later := inductionHypothesis (time.tmod format.denominator)
      (write (time, text) format).2
    have split := Int.tdiv_mul_add_tmod time format.denominator
    rw [parts, total, List.zipWith_cons_cons, List.foldr_cons, List.foldl_cons, Int.add_assoc]
    exact (congrArg (_ + ·) later).trans split

/-- The loop writes the parts one after another. -/
theorem foldl_write (formats : List Format) (time : Int) (text : List UInt8) :
    (formats.foldl write (time, text)).2 = text ++
      (List.zipWith (fun part format => format.separator ++ filled format.width part)
        (parts formats time) formats).flatten := by
  induction formats generalizing time text with
  | nil => exact (List.append_nil text).symm
  | cons format rest inductionHypothesis =>
    rw [List.foldl_cons, parts, List.zipWith_cons_cons, List.flatten_cons]
    refine (inductionHypothesis _ _).trans ?_
    simp only [List.append_assoc]

theorem read_filled (width : Nat) (number : Int) : Decimal.read (filled width number) = number :=
  Decimal.read_filled _ number

/-- No number has a separator in it. -/
theorem isSeparator_filled {width : Nat} {number : Int} :
    ∀ byte ∈ filled width number, isSeparator byte = false := by
  intro byte member
  refine Bool.eq_false_iff.mpr (fun separates => ?_)
  rcases List.mem_append.mp member with zero | digit
  · obtain ⟨_, rfl⟩ := List.mem_replicate.mp zero
    exact absurd separates (by decide)
  · rw [isSeparator, Bool.or_eq_true] at separates
    rcases separates with isColon | isDot
    · rw [eq_of_beq isColon] at digit
      exact Decimal.notMem_text (by decide) (by decide) number digit
    · rw [eq_of_beq isDot] at digit
      exact Decimal.notMem_text (by decide) (by decide) number digit

theorem numbers_filled (width : Nat) (number : Int) :
    numbers (filled width number) = [number] := by
  rw [numbers, List.splitOnP_eq_singleton isSeparator_filled, List.map_singleton, read_filled]

/-- A number before a separator. -/
theorem numbers_filled_append (width : Nat) (number : Int) {separator : UInt8}
    (separates : isSeparator separator = true) (rest : List UInt8) :
    numbers (filled width number ++ separator :: rest) = number :: numbers rest := by
  rw [numbers, List.splitOnP_append_cons_of_forall_mem isSeparator_filled separator separates,
    List.map_cons, read_filled, numbers]

/-- The text begins with the zero hours exactly when there are none. -/
theorem take_filled {number : Int} {rest : List UInt8} :
    (filled 2 number ++ colon :: rest).take 3 = [48, 48, colon] →
      number = 0 ∧ (filled 2 number ++ colon :: rest).drop 3 = rest := by
  intro begins
  have whole : filled 2 number ++ colon :: rest =
      [48, 48] ++ colon :: (filled 2 number ++ colon :: rest).drop 3 := by
    rw [← List.take_append_drop 3 (filled 2 number ++ colon :: rest), begins]
    rfl
  have inside : colon ∉ filled 2 number := fun member =>
    absurd (isSeparator_filled colon member) (by decide)
  obtain ⟨zeros, same⟩ := (Decimal.append_cons_inj inside (by decide)).mp whole
  have none := read_filled 2 number
  rw [zeros] at none
  exact ⟨none.symm, same.symm⟩

/-- The milliseconds leave nothing over. -/
theorem total_parts_formats (time : Int) : total (parts formats time) formats = time := by
  have whole := total_parts formats time []
  have nothing : (formats.foldl write (time, [])).1 = 0 := Int.tmod_one _
  rw [nothing, Int.add_zero] at whole
  exact whole

/-- Every time is read back from its text. -/
theorem readTime_getFormattedTime (msecs : Int) : readTime (getFormattedTime msecs) = msecs := by
  obtain ⟨hours, minutes, seconds, milliseconds, apart⟩ :
      ∃ hours minutes seconds milliseconds,
        parts formats msecs = [hours, minutes, seconds, milliseconds] := ⟨_, _, _, _, rfl⟩
  have later : numbers (filled 2 minutes ++ colon :: (filled 2 seconds ++
      dot :: filled 3 milliseconds)) = [minutes, seconds, milliseconds] := by
    rw [numbers_filled_append 2 minutes rfl, numbers_filled_append 2 seconds rfl,
      numbers_filled]
  have text : (formats.foldl write (msecs, [])).2 = filled 2 hours ++ colon ::
      (filled 2 minutes ++ colon :: (filled 2 seconds ++ dot :: filled 3 milliseconds)) := by
    rw [foldl_write, apart]
    simp only [formats, List.zipWith_cons_cons, List.zipWith_nil_left, List.flatten_cons,
      List.flatten_nil, List.nil_append, List.append_nil, List.cons_append]
  have whole := total_parts_formats msecs
  rw [apart] at whole
  rw [getFormattedTime, createTimeFormatString]
  simp only [text]
  split
  · rename_i begins
    obtain ⟨none, rest⟩ := take_filled begins
    rw [readTime, rest, later]
    rw [none] at whole
    exact whole
  · rw [readTime, numbers_filled_append 2 hours rfl, later]
    exact whole

/-- "01:05.250": the hours are left out. -/
example : getFormattedTime 65250 = [48, 49, 58, 48, 53, 46, 50, 53, 48] := by decide

end Mprt.TimeFormat
