import Clawforge.Sensors.Docker

/-!
# The lines of the Docker events stream

However a text is cut into chunks, the reader takes the lines of what the chunks are decoded to
(`stream_eq`): these are the lines of the text itself if and only if no chunk ends within a
character.
-/

namespace Clawforge.DockerSensor

open Kit List

/-! ## Lines -/

theorem takeLines_append (text more : List Char) : takeLines (text ++ more) =
    ((takeLines text).1 ++ (takeLines ((takeLines text).2 ++ more)).1,
      (takeLines ((takeLines text).2 ++ more)).2) := by
  induction text with
  | nil => rfl
  | cons c rest ih =>
    rw [cons_append, takeLines, takeLines, ih]
    by_cases hc : c = '\n'
    · rw [if_pos hc, if_pos hc]
      rfl
    · rw [if_neg hc, if_neg hc]
      cases (takeLines rest).1 with
      | nil =>
        simp only [nil_append, cons_append]
        rw [takeLines, if_neg hc]
      | cons line lines => rfl

/-- The text is put together again of its lines and what is left. -/
theorem takeLines_join (text : List Char) :
    (takeLines text).1.flatMap (· ++ ['\n']) ++ (takeLines text).2 = text := by
  induction text with
  | nil => rfl
  | cons c rest ih =>
    rw [takeLines]
    by_cases hc : c = '\n'
    · rw [if_pos hc, flatMap_cons, hc, append_assoc, ih]
      rfl
    · rw [if_neg hc]
      cases hlines : (takeLines rest).1 with
      | nil | cons =>
        rw [hlines] at ih
        exact congrArg (c :: ·) ih

theorem takeLines_injective : Function.Injective takeLines := by
  intro text text' h
  rw [← takeLines_join text, h, takeLines_join]

/-! ## The stream -/

section Stream

variable (now : Int) (hostLabel : String) (fromStr : List Char → Option Json)

/-- What the reader makes of a text that comes in one piece. -/
def readText (text : List Char) : EventsStream where
  buffer := (takeLines text).2
  lines := (takeLines text).1
  queued := (takeLines text).1.filterMap (queuedEvent now hostLabel fromStr)

theorem readChunk_readText (text : List Char) (chunk : List UInt8) :
    readChunk now hostLabel fromStr (readText now hostLabel fromStr text) chunk =
      readText now hostLabel fromStr (text ++ Utf8.decode none chunk) := by
  simp only [readChunk, readText, takeLines_append text, filterMap_append]

/-- The reader takes the lines of what the chunks are decoded to, one by one. -/
theorem stream_eq (chunks : List (List UInt8)) : streamDockerEvents now hostLabel fromStr chunks =
    readText now hostLabel fromStr (chunks.flatMap (Utf8.decode none)) := by
  suffices hfold : ∀ text : List Char,
      chunks.foldl (readChunk now hostLabel fromStr) (readText now hostLabel fromStr text) =
        readText now hostLabel fromStr (text ++ chunks.flatMap (Utf8.decode none)) from hfold []
  induction chunks with
  | nil =>
    intro text
    rw [flatMap_nil, append_nil, foldl_nil]
  | cons chunk rest ih =>
    intro text
    rw [foldl_cons, readChunk_readText, ih, flatMap_cons, append_assoc]

/-- The reader takes the lines of a text, queues their events and keeps what is left in its buffer,
however the text is cut into chunks of whole characters, and in no other way of cutting it. -/
theorem framing_iff {chunks : List (List UInt8)} {text : List Char}
    (h : chunks.flatten = Utf8.encode text) :
    streamDockerEvents now hostLabel fromStr chunks = readText now hostLabel fromStr text ↔
      ∀ c ∈ chunks, ∃ piece, c = Utf8.encode piece := by
  rw [stream_eq, ← Utf8.decode_chunks_iff h]
  constructor
  · intro hread
    have hlines := congrArg EventsStream.lines hread
    have hbuffer := congrArg EventsStream.buffer hread
    exact takeLines_injective (Prod.ext hlines hbuffer)
  · exact fun htext => congrArg _ htext

end Stream

/-- The two bytes of a letter come in two chunks. -/
theorem framing_iff_split : ¬ ∀ c ∈ [[0xC3], [0xA9, 0x0A]], ∃ piece, c = Utf8.encode piece := by
  have hbytes : [[0xC3], [0xA9, 0x0A]].flatten = Utf8.encode ['é', '\n'] := by decide
  rw [← framing_iff 0 "host" (fun _ => none) hbytes]
  decide

end Clawforge.DockerSensor
