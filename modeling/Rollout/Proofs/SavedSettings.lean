import Rollout.Proofs.JsonRoundTrip
import Rollout.Proofs.Server
import Rollout.Settings

/-!
# Saved settings are read back

Settings that were saved are loaded as they were: the timeout, whatever number it is, and the paths,
whatever they hold. An empty list is left out of the text and comes back as the default. What is saved
is read at the path at which it was saved, through links too, as long as the file may be read: writing a
file does not change where its path leads. So no two settings are saved as the same text, and the paths
that are guarded after a load are those that were guarded before the save.
-/

namespace Rollout

namespace Text

theorem toList_loop (bytes : ByteArray) (index : Nat) (taken : List UInt8) :
    ByteArray.toList.loop bytes index taken = taken.reverse ++ bytes.data.toList.drop index := by
  fun_induction ByteArray.toList.loop bytes index taken with
  | case1 index taken more ih =>
    have inside : index < bytes.data.toList.length := by simpa using more
    have here : bytes.data.toList.drop index =
        bytes.get! index :: bytes.data.toList.drop (index + 1) := by
      rw [List.drop_eq_getElem_cons inside]
      simp [ByteArray.get!, more]
    rw [ih, here, List.reverse_cons, List.append_assoc, List.singleton_append]
  | case2 index taken done =>
    have beyond : bytes.data.toList.length ≤ index := by simpa using Nat.le_of_not_lt done
    rw [List.drop_eq_nil_of_le beyond, List.append_nil]

/-- The bytes of a text are read as the text. -/
theorem decode?_toUTF8 (text : String) : decode? text.toUTF8.toList = some text := by
  have bytes : (⟨text.toUTF8.toList.toArray⟩ : ByteArray) = text.toByteArray := by
    rw [ByteArray.toList, toList_loop]
    simp
  rw [decode?, bytes, String.fromUTF8?, dif_pos text.isValidUTF8]
  rfl

end Text

namespace Settings

open Json (syntaxOf syntaxOfItems syntaxOfFields)

theorem decodeKeys_syntaxOfFields (fields : List (String × Json)) :
    decodeKeys (syntaxOfFields fields) = some (fields.map fun field => (field.1, syntaxOf field.2)) := by
  induction fields with
  | nil => rfl
  | cons field rest ih =>
    obtain ⟨key, value⟩ := field
    unfold decodeKeys at ih ⊢
    rw [syntaxOfFields, List.mapM_cons, ih]
    simp [Json.decode?_escaped]

theorem timeout?_digitsOf (timeout : UInt64) :
    timeout? (.number (Json.digitsOf timeout.toNat)) = some timeout := by
  rw [timeout?, Json.natural?_digitsOf]
  simp [UInt64.toNat_lt_size]

theorem paths?_strings (paths : List String) :
    paths? (.array (syntaxOfItems (paths.map .string))) = some paths := by
  rw [paths?]
  induction paths with
  | nil => rfl
  | cons path rest ih =>
    rw [List.map_cons, syntaxOfItems, List.mapM_cons, ih, syntaxOf, Json.text?_escaped]
    rfl

/-- The value that settings are saved as holds these settings. -/
theorem ofJson?_json (settings : Settings) : ofJson? (syntaxOf settings.json) = some settings := by
  obtain ⟨timeout, paths⟩ := settings
  have other : pathsKey ≠ timeoutKey := by decide
  rw [json, syntaxOf, ofJson?, decodeKeys_syntaxOfFields]
  cases paths with
  | nil => simp [field?, syntaxOf, timeout?_digitsOf, other.symm]
  | cons path rest =>
    have read : paths? (.array (syntaxOfItems (.string path :: rest.map .string))) = some (path :: rest) :=
      paths?_strings (path :: rest)
    simp [field?, syntaxOf, timeout?_digitsOf, other, other.symm, read]

def written (settings : Settings) : Bytes :=
  settings.json.pretty.toUTF8.toList

theorem ofBytes?_written (settings : Settings) : ofBytes? settings.written = some settings := by
  rw [ofBytes?, written, Text.decode?_toUTF8, Option.bind_eq_bind, Option.bind_some, Json.read?_pretty]
  exact ofJson?_json settings

end Settings

namespace Machine

variable {files files' : Files} {place : Place} {links : Nat} {directory : String} {path : List String}

/-- The other tree differs at the place alone, where nothing or a file was and a file is now. -/
structure WrittenAt (files files' : Files) (place : String) : Prop where
  before : ∀ node, files.get? place = some node → ∃ content mode, node = .file content mode
  after : ∃ content mode, files'.get? place = some (.file content mode)
  others : ∀ other, other ≠ place → files'.get? other = files.get? other

/-- What is not a file stands elsewhere and stays. -/
theorem WrittenAt.kept {target path : String} {node : Node} (written : WrittenAt files files' target)
    (there : files.get? path = some node) (other : ∀ content mode, node ≠ .file content mode) :
    files'.get? path = some node := by
  have elsewhere : path ≠ target := by
    rintro rfl
    obtain ⟨content, mode, same⟩ := written.before node there
    exact other content mode same
  rw [written.others path elsewhere, there]

/-- A path leads to a file that is written as it led there before: nothing leads through a file. -/
theorem walk_writtenAt (written : WrittenAt files files' place.path) (plain : place.asDirectory = false)
    (leads : walk files true links directory path = .ok place) :
    walk files' true links directory path = .ok place := by
  obtain ⟨content, mode, stands⟩ := written.after
  -- Directories and links on the way are not the place, since a file or nothing was there.
  fun_induction walk files true links directory path with
  | case1 => simpa [walk] using leads
  | case2 _ _ _ ih | case3 _ _ _ ih | case4 _ _ _ ih =>
    rw [walk]
    exact ih leads
  | case6 links directory name rest notEmpty notHere notAbove short path there ends
  | case10 links directory name rest notEmpty notHere notAbove short path _ _ there ends =>
    obtain rfl : (⟨path, false⟩ : Place) = place := Except.ok.inj leads
    rw [walk, if_neg short]
    · dsimp only
      rw [stands]
      exact if_pos ends
    all_goals assumption
  | case7 =>
    obtain rfl := Except.ok.inj leads
    cases plain
  | case9 links directory name rest notEmpty notHere notAbove short path mode there ih =>
    rw [walk, if_neg short]
    · dsimp only
      rw [written.kept there nofun]
      exact ih leads
    all_goals assumption
  | case12 _ _ _ rest _ _ _ _ _ _ _ stays => simp at stays
  | case15 directory name rest notEmpty notHere notAbove short path target there follows links more start
      ih =>
    rw [walk, if_neg short]
    · dsimp only
      rw [written.kept there nofun]
      exact (if_neg follows).trans ((if_neg more).trans (ih leads))
    all_goals assumption
  | case5 | case8 | case11 | case13 | case14 => cases leads

/-- A path asks for a directory by a slash at its end only where nothing is. -/
theorem missing_of_asDirectory {follow : Bool} (leads : walk files follow links directory path = .ok place)
    (asked : place.asDirectory = true) : files.get? place.path = none := by
  fun_induction walk files follow links directory path with
  | case2 _ _ _ ih | case3 _ _ _ ih | case4 _ _ _ ih => exact ih leads
  | case7 _ _ _ _ _ _ _ _ path missing =>
    obtain rfl := Except.ok.inj leads
    exact missing
  | case9 _ _ _ _ _ _ _ _ _ _ _ ih => exact ih leads
  | case15 _ _ _ _ _ _ _ _ _ _ _ _ _ _ ih => exact ih leads
  | case1 | case6 | case10 | case12 =>
    obtain rfl := Except.ok.inj leads
    cases asked
  | case5 | case8 | case11 | case13 | case14 => cases leads

section

variable {machine machine' : Machine} {path place : String} {content : Bytes}

theorem locate_writtenAt {place : Place} (written : WrittenAt machine.files files' place.path)
    (plain : place.asDirectory = false) (leads : machine.locate path = .ok place) :
    { machine with files := files' }.locate path = .ok place := by
  unfold locate at leads ⊢
  split at leads
  next => cases leads
  next given =>
    split at leads
    next => cases leads
    next short =>
      rw [if_neg given, if_neg short]
      exact walk_writtenAt written plain leads

theorem missing_of_locate_asDirectory {place : Place} (leads : machine.locate path = .ok place)
    (asked : place.asDirectory = true) : machine.files.get? place.path = none := by
  unfold locate at leads
  split at leads
  next => cases leads
  next =>
    split at leads
    next => cases leads
    next => exact missing_of_asDirectory leads asked

/-- What creating a file does: the path leads to a place where nothing or a file was, and an empty file
is there now. -/
theorem createFile_cases (created : machine.createFile path = .ok (place, machine')) :
    machine.locate path = .ok { path := place } ∧
      (∀ node, machine.files.get? place = some node → ∃ content mode, node = .file content mode) ∧
      ∃ mode, machine' = { machine with files := machine.files.set place (.file [] mode) } := by
  unfold createFile at created
  split at created
  next => cases created
  next found leads =>
    obtain ⟨found, asDirectory⟩ := found
    cases there : machine.files.get? found with
    | none =>
      simp only [there] at created
      split at created
      next => cases created
      next plain =>
        split at created
        next => cases created
        next =>
          cases created
          rw [Bool.eq_false_of_not_eq_true plain] at leads
          exact ⟨leads, by simp [there], _, rfl⟩
    | some node =>
      have plain : asDirectory = false := by
        by_contra asked
        have missing := missing_of_locate_asDirectory leads (Bool.eq_true_of_not_eq_false asked)
        exact Option.some_ne_none node (there.symm.trans missing)
      subst plain
      cases node with
      | file old mode =>
        simp only [there] at created
        split at created
        next =>
          cases created
          exact ⟨leads, fun node here => ⟨old, mode, Option.some.inj (here.symm.trans there)⟩, mode, rfl⟩
        next => cases created
      | directory | link => simp [there] at created

theorem append_eq {old : Bytes} {mode : Nat} (there : machine.files.get? place = some (.file old mode))
    (content : Bytes) : machine.append place content =
      { machine with files := machine.files.set place (.file (old ++ content) mode) } := by
  rw [append, there]

/-- A file that was written is found at its path, and it holds what was written and nothing else. -/
theorem node_writeFile (wrote : machine.writeFile path content = .ok machine') :
    ∃ mode, machine'.node path = .ok (.file content mode) := by
  unfold writeFile at wrote
  split at wrote
  next => cases wrote
  next place created creates =>
    obtain ⟨leads, before, mode, rfl⟩ := createFile_cases creates
    have emptied : (machine.files.set place (.file [] mode)).get? place = some (.file [] mode) := by
      rw [Files.get?_set, if_pos rfl]
    rw [append_eq emptied] at wrote
    cases wrote
    set files' := (machine.files.set place (.file [] mode)).set place (.file ([] ++ content) mode)
    have filled : files'.get? place = some (.file content mode) := by
      rw [Files.get?_set, if_pos rfl, List.nil_append]
    have written : WrittenAt machine.files files' place := by
      refine ⟨before, ⟨content, mode, filled⟩, fun other elsewhere => ?_⟩
      rw [Files.get?_set, if_neg elsewhere, Files.get?_set, if_neg elsewhere]
    refine ⟨mode, ?_⟩
    rw [node, locate_writtenAt written rfl leads]
    dsimp only
    rw [filled]

end

end Machine

namespace Settings

variable {settings : Settings} {machine after : Machine} {path : String}

/-- A save leaves a file with the settings at the path. -/
theorem node_saveTo (saved : settings.saveTo machine path = .ok after) :
    ∃ mode, after.node path = .ok (.file settings.written mode) := by
  unfold saveTo at saved
  split at saved
  next => exact Machine.node_writeFile saved
  next above _ =>
    cases made : machine.makeDirectories above with
    | error error =>
      rw [made] at saved
      cases saved
    | ok made' =>
      rw [made] at saved
      exact Machine.node_writeFile saved

/-- Settings that were saved are what is loaded, and no others are saved as the same text. -/
theorem saved_settings_read_back (saved : settings.saveTo machine path = .ok after) :
    (∃ mode, after.node path = .ok (.file settings.written mode) ∧
      (Machine.mayRead mode = true →
        loadFrom after path = settings ∧ (loadFrom after path).guarded = settings.guarded)) ∧
      ofBytes? settings.written = some settings ∧
      ∀ other : Settings, other.written = settings.written → other = settings := by
  have reads := ofBytes?_written settings
  refine ⟨?_, reads, fun other same => ?_⟩
  · obtain ⟨mode, stands⟩ := node_saveTo saved
    refine ⟨mode, stands, fun readable => ?_⟩
    have content : after.contentAt path = .ok settings.written := by
      simp only [Machine.contentAt, stands, readable, if_true]
    have loads : loadFrom after path = settings := by
      rw [loadFrom, content]
      simp only [reads, Option.getD_some]
    exact ⟨loads, congrArg guarded loads⟩
  · have others := ofBytes?_written other
    rw [same, reads] at others
    exact (Option.some.inj others).symm

/-- The largest timeout, and paths with whatever a text may hold. -/
def awkward : Settings where
  connectTimeout := 18446744073709551615
  protectedPaths := ["", "/srv/\"quoted\"", "C:\\data", "/bell\x07\n\t", "/véhicules/日本", ""]

def unset : Machine where
  files := { nodes := [("/", .directory 0o755)] }
  directory := "/"

def prepared : Machine :=
  { unset with files := unset.files.set "/d" (.directory 0o755) }

def emptied : Machine :=
  { prepared with files := prepared.files.set "/d/s" (.file [] 0o644) }

def provided (content : Bytes) : Machine :=
  { emptied with files := emptied.files.set "/d/s" (.file content 0o644) }

theorem node_provided (content : Bytes) : (provided content).node "d/s" = .ok (.file content 0o644) := by
  cbv

theorem saveTo_unset (settings : Settings) :
    settings.saveTo unset "d/s" = .ok (provided settings.written) := by
  have above : LocalPath.parent "d/s" = some "d" := by decide
  have makes : unset.makeDirectories "d" = .ok prepared := by cbv
  have creates : prepared.createFile "d/s" = .ok ("/d/s", emptied) := by cbv
  have stands : emptied.files.get? "/d/s" = some (.file [] 0o644) := by decide
  rw [saveTo, above]
  dsimp only
  rw [makes]
  change prepared.writeFile "d/s" settings.written = _
  rw [Machine.writeFile, creates]
  dsimp only
  rw [Machine.append_eq stands, List.nil_append, provided]

theorem saved_settings_read_back_awkward :
    awkward.saveTo unset "d/s" = .ok (provided awkward.written) ∧
      loadFrom (provided awkward.written) "d/s" = awkward ∧
      ∀ other : Settings, other.written = awkward.written → other = awkward := by
  have saved := saveTo_unset awkward
  obtain ⟨⟨mode, stands, loads⟩, -, others⟩ := saved_settings_read_back saved
  have same : mode = 0o644 := by
    rw [node_provided] at stands
    cases stands
    rfl
  have readable : Machine.mayRead mode = true := by
    rw [same]
    decide
  exact ⟨saved, (loads readable).1, others⟩

end Settings

end Rollout
