import Rollout.Copy

/-!
# Accounting for the bytes of a copy

A copy counts its bytes three times: in what it returns, in what it tells of, and in what the writer has. Reads
of any size, interrupted reads, writes of a part, of nothing, and writes that fail can follow each other in any
order, but after every read that the copy goes on from, the reads so far were told of and written in full. So a
copy that returns a count has all three alike, and one that breaks off does so at one read, of which alone less
may have been written than was told of.
-/

namespace Rollout

namespace Copy

/-! ### What reads yield -/

def Read.bytes? : Read → Option Bytes
  | chunk bytes => some bytes
  | interrupted | failed _ => none

def content (reads : List Read) : Bytes :=
  (reads.filterMap Read.bytes?).flatten

def sizes (reads : List Read) : List Nat :=
  (reads.filterMap Read.bytes?).map List.length

/-- The reads before the first that yields nothing, which is the end of the reader. -/
def untilEnd (reads : List Read) : List Read :=
  reads.takeWhile (· ≠ .chunk [])

/-- After this read a copy goes on: it yields some bytes, or it was interrupted. -/
def Read.GoesOn : Read → Prop
  | chunk bytes => bytes ≠ []
  | interrupted => True
  | failed _ => False

section Reads

variable (before after : List Read) (bytes : Bytes) (error : IoError)

@[simp] theorem content_append : content (before ++ after) = content before ++ content after := by
  simp [content]

@[simp] theorem content_chunk : content [.chunk bytes] = bytes := by
  simp [content, Read.bytes?]

@[simp] theorem content_interrupted : content [.interrupted] = [] := rfl

@[simp] theorem content_failed : content [.failed error] = [] := rfl

@[simp] theorem sizes_append : sizes (before ++ after) = sizes before ++ sizes after := by
  simp [sizes]

@[simp] theorem sizes_chunk : sizes [.chunk bytes] = [bytes.length] := rfl

@[simp] theorem sizes_interrupted : sizes [.interrupted] = [] := rfl

@[simp] theorem sizes_failed : sizes [.failed error] = [] := rfl

/-- The sizes add up to the bytes. -/
theorem reported_sizes (reads : List Read) : reported (sizes reads) = (content reads).length := by
  rw [reported, ← List.sum_eq_foldl, sizes, content, List.length_flatten]

end Reads

theorem untilEnd_eq {before : List Read} (goesOn : ∀ read ∈ before, read.GoesOn) {rest : List Read}
    (ends : rest = [] ∨ ∃ more, rest = .chunk [] :: more) : untilEnd (before ++ rest) = before := by
  have passed : ∀ read ∈ before, decide (read ≠ .chunk []) = true := by
    intro read member
    apply decide_eq_true
    rintro rfl
    exact goesOn _ member rfl
  rw [untilEnd, List.takeWhile_append_of_pos passed]
  rcases ends with rfl | ⟨more, rfl⟩ <;> simp

/-! ### What a copy comes to -/

/-- At its last call the writer failed, or it accepted nothing: that call accepts nothing at all, or the writer
has as many bytes as it ever takes. -/
def Writer.Refused (writer : Writer) (progress : Progress) (error : IoError) : Prop :=
  ∃ call, progress.writes = call + 1 ∧
    (writer.error call = some error ∨ writer.error call = none ∧ error = .nothingWritten ∧
      (writer.accepts call = some 0 ∨ ∃ limit, writer.limit = some limit ∧ limit ≤ progress.written.length))

/-- What holds when the copy returns a count: the reader was read to its end, the writer has just its bytes and
was flushed, every read was told of with its size, that of nothing too, and then, once, that the transfer is
finished. -/
structure Complete (writer : Writer) (reads : List Read) (count : Nat) (progress : Progress) : Prop where
  unbroken : ∀ error, .failed error ∉ untilEnd reads
  flushed : writer.flushError = none
  written : progress.written = content (untilEnd reads)
  counted : count = progress.written.length
  advances : progress.advances = sizes (untilEnd reads ++ [.chunk []])
  summed : reported progress.advances = count
  finished : progress.notices = progress.advances.map .advance ++ [.finish]

/-- Why a copy broke off at a read with the error, after reads that were written in full. -/
inductive BreaksAt (writer : Writer) (progress : Progress) (before : List Read) : Read → IoError → Prop
  /-- The read failed. -/
  | read (error : IoError) (written : progress.written = content before) :
      BreaksAt writer progress before (.failed error) error
  /-- The writer did not take all of the bytes. -/
  | write (bytes : Bytes) (error : IoError) (written : content before <+: progress.written)
      (missing : progress.written.length < (content before).length + bytes.length)
      (refused : writer.Refused progress error) : BreaksAt writer progress before (.chunk bytes) error
  /-- The reader was at its end, and flushing the writer failed. -/
  | flush (error : IoError) (written : progress.written = content before) (fails : writer.flushError = some error) :
      BreaksAt writer progress before (.chunk []) error

/-- What holds when the copy fails: it was never told to be finished, and it broke off at one of the reads, or at
the end of the reader. The reads up to this one, and no others, were told of with their sizes, and the writer has
the first of their bytes, no more than were told of. -/
structure BrokenOff (writer : Writer) (reads : List Read) (error : IoError) (progress : Progress) : Prop where
  unfinished : .finish ∉ progress.notices
  made : ∃ before last, before ++ [last] <+: reads ++ [.chunk []] ∧ (∀ read ∈ before, read.GoesOn) ∧
    BreaksAt writer progress before last error ∧
    progress.written <+: content (before ++ [last]) ∧ progress.advances = sizes (before ++ [last])
  covered : progress.written.length ≤ reported progress.advances

/-- Every byte of the copy is accounted for. -/
def Accounted (writer : Writer) (reads : List Read) : Except IoError Nat × Progress → Prop
  | (.ok count, progress) => Complete writer reads count progress
  | (.error error, progress) => BrokenOff writer reads error progress

/-! ### Writing a chunk -/

section Writing

variable {writer : Writer} {progress : Progress}

theorem bounded_eq_zero {count : Nat} {bound : Option Nat} (zero : bounded count bound = 0) :
    count = 0 ∨ bound = some 0 := by
  cases bound with
  | none => exact .inl zero
  | some bound =>
    rw [bounded] at zero
    rw [Option.some.injEq]
    omega

/-- A writer that accepts none of some bytes is bounded so. -/
theorem accepts_nothing {count : Nat} (positive : count ≠ 0) (nothing : writer.next progress count = 0) :
    writer.accepts progress.writes = some 0 ∨
      ∃ limit, writer.limit = some limit ∧ limit ≤ progress.written.length := by
  rcases bounded_eq_zero nothing with zero | full
  · exact .inl ((bounded_eq_zero zero).resolve_left positive)
  · obtain ⟨limit, limited, left⟩ := Option.map_eq_some_iff.1 full
    exact .inr ⟨limit, limited, by omega⟩

/-- A chunk is written in full, or the writer refuses what is left of it. Nothing is told meanwhile. -/
theorem writeAll_cases (writer : Writer) (progress : Progress) (bytes : Bytes) : ∃ after,
    after.notices = progress.notices ∧
      (writer.writeAll progress bytes = (.ok (), after) ∧ after.written = progress.written ++ bytes ∨
        ∃ error, writer.writeAll progress bytes = (.error error, after) ∧ writer.Refused after error ∧
          ∃ taken left, bytes = taken ++ left ∧ left ≠ [] ∧ after.written = progress.written ++ taken) := by
  fun_induction Writer.writeAll writer progress bytes with
  | case1 progress bytes empty =>
    obtain rfl := List.isEmpty_iff.1 empty
    exact ⟨progress, rfl, .inl ⟨rfl, (List.append_nil _).symm⟩⟩
  | case2 progress bytes nonempty error fails =>
    let after := { progress with writes := progress.writes + 1 }
    have refused : writer.Refused after error := ⟨progress.writes, rfl, .inl fails⟩
    have positive : bytes ≠ [] := by simpa using nonempty
    exact ⟨after, rfl, .inr ⟨error, rfl, refused, [], bytes, rfl, positive, (List.append_nil _).symm⟩⟩
  | case3 progress bytes nonempty works taken after nothing =>
    have positive : bytes ≠ [] := by simpa using nonempty
    have unchanged : after.written = progress.written := by simp [after, nothing]
    have refused : writer.Refused after .nothingWritten := by
      refine ⟨progress.writes, rfl, .inr ⟨works, rfl, ?_⟩⟩
      rw [unchanged]
      exact accepts_nothing (by simpa using positive) nothing
    exact ⟨after, rfl, .inr ⟨_, rfl, refused, [], bytes, rfl, positive, by simpa using unchanged⟩⟩
  | case4 progress bytes nonempty works taken after positive ih =>
    have whole : after.written ++ bytes.drop taken = progress.written ++ bytes := by simp [after]
    obtain ⟨final, silent, ⟨wrote, written⟩ | ⟨error, failed, refused, more, left, split, missing, written⟩⟩ := ih
    · exact ⟨final, silent, .inl ⟨wrote, written.trans whole⟩⟩
    · refine ⟨final, silent, .inr ⟨error, failed, refused, bytes.take taken ++ more, left, ?_, missing, ?_⟩⟩
      · rw [List.append_assoc, ← split, List.take_append_drop]
      · simp [written, after]

end Writing

/-! ### From read to read -/

/-- The copy goes on from the reads so far, and they were told of and written in full. -/
structure Follows (progress : Progress) (made : List Read) : Prop where
  goesOn : ∀ read ∈ made, read.GoesOn
  written : progress.written = content made
  notices : progress.notices = (sizes made).map .advance

theorem follows_nil : Follows {} [] :=
  ⟨by simp, rfl, rfl⟩

theorem advances_eq {progress : Progress} {sizes : List Nat} {rest : List Notice}
    (told : progress.notices = sizes.map .advance ++ rest) (silent : rest.filterMap Notice.bytes? = []) :
    progress.advances = sizes := by
  rw [Progress.advances, told, List.filterMap_append, silent, List.append_nil, List.filterMap_map]
  exact List.filterMap_some

theorem finish_not_mem {progress : Progress} {sizes : List Nat} (told : progress.notices = sizes.map .advance) :
    .finish ∉ progress.notices := by
  simp [told]

namespace Follows

variable {writer : Writer} {progress after : Progress} {made rest : List Read} {bytes : Bytes} {error : IoError}

theorem interrupted (follows : Follows progress made) : Follows progress (made ++ [.interrupted]) where
  goesOn := List.forall_mem_append.2 ⟨follows.goesOn, List.forall_mem_singleton.2 trivial⟩
  written := by simp [follows.written]
  notices := by simp [follows.notices]

theorem chunk (follows : Follows progress made) (nonempty : bytes ≠ [])
    (silent : after.notices = (progress.tell (.advance bytes.length)).notices)
    (written : after.written = progress.written ++ bytes) : Follows after (made ++ [.chunk bytes]) where
  goesOn := List.forall_mem_append.2 ⟨follows.goesOn, List.forall_mem_singleton.2 nonempty⟩
  written := by simp [written, follows.written]
  notices := by simp [silent, follows.notices]

/-- A copy that breaks off at a read. -/
theorem brokenOff (follows : Follows progress made) {last : Read}
    (among : made ++ [last] <+: rest ++ [.chunk []]) (breaks : BreaksAt writer after made last error)
    (told : after.notices = (sizes (made ++ [last])).map .advance) (first : after.written <+: content (made ++ [last])) :
    BrokenOff writer rest error after := by
  have advances : after.advances = sizes (made ++ [last]) := advances_eq (told.trans (List.append_nil _).symm) rfl
  refine ⟨finish_not_mem told, ⟨made, last, among, follows.goesOn, breaks, first, advances⟩, ?_⟩
  rw [advances, reported_sizes]
  exact first.length_le

/-- At the end of the reader the copy is complete, or flushing the writer fails. -/
theorem close (follows : Follows progress made) (ends : rest = [] ∨ ∃ more, rest = .chunk [] :: more) :
    Accounted writer (made ++ rest) (writer.close progress (content made).length) := by
  have told : (progress.tell (.advance 0)).notices = (sizes (made ++ [.chunk []])).map .advance := by
    simp [follows.notices]
  have written : (progress.tell (.advance 0)).written = content (made ++ [.chunk []]) := by
    simp [follows.written]
  rw [Writer.close]
  cases flushes : writer.flushError with
  | some error =>
    have among : made ++ [.chunk []] <+: made ++ rest ++ [.chunk []] := by
      rcases ends with rfl | ⟨more, rfl⟩ <;> simp
    exact follows.brokenOff among (.flush error follows.written flushes) told (written ▸ List.prefix_rfl)
  | none =>
    have all : untilEnd (made ++ rest) = made := untilEnd_eq follows.goesOn ends
    have notices : ((progress.tell (.advance 0)).tell .finish).notices =
        (sizes (made ++ [.chunk []])).map .advance ++ [.finish] := by
      rw [Progress.tell_notices, told]
    have advances : ((progress.tell (.advance 0)).tell .finish).advances = sizes (made ++ [.chunk []]) :=
      advances_eq notices rfl
    exact {
      unbroken := by rw [all]; exact fun error failed => follows.goesOn _ failed
      flushed := flushes
      written := by rw [all]; exact follows.written
      counted := congrArg List.length follows.written.symm
      advances := by rw [all]; exact advances
      summed := by rw [advances, reported_sizes]; simp
      finished := by rw [advances]; exact notices }

end Follows

/-- Going on from reads that were told of and written in full, the copy accounts for every byte. -/
theorem Follows.resume {writer : Writer} {progress : Progress} {made : List Read} {copied : Nat}
    (follows : Follows progress made) (counted : copied = (content made).length) (reads : List Read) :
    Accounted writer (made ++ reads) (resume writer progress copied reads) := by
  -- Along the reads that are left; `Follows` is kept by every read that the copy goes on from.
  induction reads generalizing progress made copied with
  | nil =>
    subst counted
    exact follows.close (.inl rfl)
  | cons read rest ih =>
    have among : made ++ [read] <+: made ++ read :: rest ++ [.chunk []] := by simp
    cases read with
    | interrupted =>
      rw [Copy.resume]
      simpa using ih follows.interrupted (by simpa using counted)
    | failed error =>
      exact follows.brokenOff among (.read error follows.written) (by simpa using follows.notices)
        (by simp [follows.written])
    | chunk bytes =>
      by_cases empty : bytes = []
      · subst empty counted
        exact follows.close (.inr ⟨rest, rfl⟩)
      · obtain ⟨after, silent,
            ⟨wrote, written⟩ | ⟨error, failed, refused, taken, left, split, missing, written⟩⟩ :=
          writeAll_cases writer (progress.tell (.advance bytes.length)) bytes
        · have onward : copied + bytes.length = (content (made ++ [.chunk bytes])).length := by simp [counted]
          rw [Copy.resume, wrote]
          · simpa using ih (follows.chunk empty silent written) onward
          · exact empty
        · have begun : after.written = content made ++ taken := by simpa [follows.written] using written
          have short : 0 < left.length := List.length_pos_iff.2 missing
          rw [Copy.resume, failed]
          · apply follows.brokenOff among
            · apply BreaksAt.write bytes error _ _ refused
              · simp [begun]
              · rw [begun, split, List.length_append, List.length_append]
                omega
            · simp [silent, follows.notices]
            · simp [begun, split]
          · exact empty

/-- The reads of a file go on to its end. -/
theorem goesOn_readsOf (bytes : Bytes) : ∀ read ∈ readsOf bytes, read.GoesOn := by
  fun_induction readsOf bytes with
  | case1 => simp
  | case2 bytes nonempty ih =>
    refine List.forall_mem_cons.2 ⟨?_, ih⟩
    simpa [Read.GoesOn, bufferSize] using nonempty

theorem content_readsOf (bytes : Bytes) : content (readsOf bytes) = bytes := by
  fun_induction readsOf bytes with
  | case1 bytes empty => exact (List.isEmpty_iff.1 empty).symm
  | case2 bytes nonempty ih =>
    calc content (.chunk (bytes.take bufferSize) :: readsOf (bytes.drop bufferSize))
      _ = content [.chunk (bytes.take bufferSize)] ++ content (readsOf (bytes.drop bufferSize)) :=
        content_append [_] _
      _ = bytes := by rw [content_chunk, ih, List.take_append_drop]

/-- However a file is written, a copy that succeeds has written all that the other file held. -/
theorem written_of_readsOf {writer : Writer} {bytes : Bytes} {count : Nat} {progress : Progress}
    (copied : run writer (readsOf bytes) = (.ok count, progress)) : progress.written = bytes := by
  have accounted : Accounted writer (readsOf bytes) (run writer (readsOf bytes)) := follows_nil.resume rfl _
  have all : untilEnd (readsOf bytes) = readsOf bytes := by
    simpa using untilEnd_eq (goesOn_readsOf bytes) (.inl rfl)
  rw [copied] at accounted
  rw [Complete.written accounted, all, content_readsOf]

/-- Whatever the reader yields and however the writer takes it, the copy accounts for every byte: what it returns,
what it told of and what the writer has are the same if it returns a count, and if it fails the writer has the first
of the bytes that were told of. -/
theorem run_accounted (writer : Writer) (reads : List Read) : Accounted writer reads (run writer reads) :=
  follows_nil.resume rfl reads

/-- The writer takes two bytes a call, and is full within the second chunk. -/
example : run { accepts := fun _ => some 2, limit := some 4 }
      [.chunk [1, 2, 3], .interrupted, .chunk [4, 5], .chunk [6]] =
    (.error .nothingWritten, { writes := 4, written := [1, 2, 3, 4], notices := [.advance 3, .advance 2] }) := by
  cbv

end Copy

end Rollout
