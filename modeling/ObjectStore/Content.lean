import ObjectStore.StorageError
import ObjectStore.Text.Utf8

/-! # Chunked content

* **`Content`** — what is saved and loaded: a finite stream of chunks, any of which may fail to
  arrive, and an advisory size.
* **`Content.drain`** — all the chunks as one value, or the first failure.

Content without chunks is an empty value, which differs from having no entry at all. -/

namespace ObjectStore

/-- A finite stream of chunks. -/
structure Content where
  /-- The declared total size, if known beforehand. Nothing depends on it. -/
  size : Option Nat
  /-- The chunks in order; a chunk that does not arrive is a fault in its place. -/
  chunks : List (Except Fault Bytes)

namespace Content

/-- Content without chunks, of declared size zero. -/
def empty : Content := ⟨some 0, []⟩

instance : Inhabited Content := ⟨empty⟩

/-- One value as content: a single chunk of known size, and no chunk for the empty value. -/
def ofBytes (value : Bytes) : Content :=
  if value.isEmpty then empty else ⟨some value.length, [.ok value]⟩

/-- Some chunks as content, empty ones included; the size is that of all of them together. -/
def ofChunks (chunks : List Bytes) : Content := ⟨some chunks.flatten.length, chunks.map .ok⟩

/-- Any stream as content, with whatever size it is said to have. -/
def ofStream (chunks : List (Except Fault Bytes)) (size : Option Nat) : Content := ⟨size, chunks⟩

/-- The chunks up to the first fault, or that fault; `taken` holds the chunks so far in reverse. -/
def gather (taken : List Bytes) : List (Except Fault Bytes) → Except Fault (List Bytes)
  | [] => .ok taken.reverse
  | .ok chunk :: more => gather (chunk :: taken) more
  | .error fault :: _ => .error fault

/-- All the chunks as one value. The first fault ends the stream, whatever follows it. -/
def drain (content : Content) : Result Bytes :=
  match gather [] content.chunks with
  | .ok chunks => .ok chunks.flatten
  | .error fault => .error (.backend fault)

/-- The text that shows a content without reading it: only its declared size. -/
def summary (content : Content) : String :=
  let size := match content.size with
    | some n => s!"Some({n})"
    | none => "None"
  "Content \x7b size: " ++ size ++ ", .. \x7d"

@[simp] theorem drain_empty : empty.drain = .ok [] := rfl

@[simp] theorem drain_ofBytes (value : Bytes) : (ofBytes value).drain = .ok value := by
  cases value <;> simp [ofBytes, drain, empty, gather]

theorem gather_map_ok (taken chunks : List Bytes) :
    gather taken (chunks.map .ok) = .ok (taken.reverse ++ chunks) := by
  induction chunks generalizing taken with
  | nil => simp [gather]
  | cons chunk more ih => simp [gather, ih]

/-- Draining chunks concatenates them, empty ones included. -/
@[simp] theorem drain_ofChunks (chunks : List Bytes) :
    (ofChunks chunks).drain = .ok chunks.flatten := by
  simp [ofChunks, drain, gather_map_ok]

end Content

end ObjectStore
