import BranchSim.Proofs.Json.Faithful
import BranchSim.Proofs.Json.Written
import BranchSim.Trace
import Mathlib

namespace BranchSim

open Json.Format

def FileSystem.Keeps {σ : Type} (files : FileSystem (StateM σ)) (path : String) : Prop :=
  ∀ octets s s', (files.write path octets).run s = (.ok (), s') →
    ((files.read path).run s').1 = .ok octets

def FileSystem.PureReads {σ : Type} (files : FileSystem (StateM σ)) : Prop :=
  ∀ path s, ((files.read path).run s).2 = s

namespace Directory

theorem pureReads_fileSystem : fileSystem.PureReads :=
  fun _ _ => rfl

theorem find?_insert (d : Directory) (file : String) (octets : List Char) :
    (d.insert file octets).find? file = some octets := by
  rw [find?, insert, List.lookup_cons, beq_self_eq_true]

theorem read_of_write {d d' : Directory} {path : String} {octets : List Char}
    (regular : place path ≠ .nullDevice) (written : d.write path octets = .ok d') :
    d'.read path = .ok octets := by
  unfold write at written
  unfold read
  cases leads : place path with
  | directory => rw [leads] at written; cases written
  | nullDevice => exact absurd leads regular
  | elsewhere => rw [leads] at written; cases written
  | tooLong => rw [leads] at written; cases written
  | name file within =>
      rw [leads] at written
      cases within with
      | true => cases written
      | false =>
          obtain rfl := Except.ok.inj written
          simp only [find?_insert]
          rfl

theorem run_write (path : String) (octets : List Char) (d : Directory) :
    (fileSystem.write path octets).run d = match d.write path octets with
      | .error e => (.error (.creation e), d)
      | .ok d' => (.ok (), d') :=
  rfl

/-- Only the file that is always empty loses what is written to it. -/
theorem keeps_fileSystem {path : String} (regular : place path ≠ .nullDevice) :
    fileSystem.Keeps path := by
  intro octets d d' written
  rw [run_write] at written
  cases result : d.write path octets with
  | error e =>
      rw [result] at written
      cases written
  | ok after =>
      rw [result] at written
      obtain rfl : after = d' := congrArg Prod.snd written
      exact read_of_write regular result

end Directory

theorem Event.faithful_format : Event.format.Faithful :=
  faithful_record ⟨by decide, by decide⟩
    (.cons (faithful_word64 "u64").field <| .cons faithful_boolean.field .nil)
    fun _ => rfl

def Event.text (e : Event) : String :=
  objectText [("pc", toString e.pc), ("taken", toString e.taken)]

theorem Event.write_eq_text (e : Event) : Event.format.write e = e.text.toList := by
  rw [text, toList_objectText]
  simp only [List.map_cons, List.map_nil, ← write_word64 "u64", ← write_boolean]
  rfl

namespace Trace

theorem delimiting_format : Trace.format.Delimiting :=
  Event.faithful_format.list

def text (events : List Event) : String :=
  arrayText (events.map Event.text)

theorem document_eq_text (events : List Event) : document events = (text events).toList := by
  have items : events.map Event.format.write = (events.map Event.text).map String.toList := by
    rw [List.map_map]
    exact List.map_congr_left fun e _ => e.write_eq_text
  rw [text, toList_arrayText, ← items]
  rfl

theorem ofFile_of_decode {octets : List Char} {result : Except Json.Fault (List Event)}
    (decoded : Trace.format.decode octets = result) :
    ofFile (.ok octets) = result.mapError .malformed := by
  rw [ofFile, ofOctets, decoded]

theorem ofFile_document (events : List Event) : ofFile (.ok (document events)) = .ok events := by
  have decoded : Trace.format.decode (document events) = .ok events :=
    delimiting_format.faithful.decode_encode events
  exact ofFile_of_decode decoded

/-- Whatever a file held before, after a stream is saved it holds the text of that stream alone, and
loading it gives the stream. -/
theorem load_of_save (events : List Event) :
    (∀ path, Directory.place path ≠ .nullDevice → Directory.fileSystem.Keeps path) ∧
      ∀ (σ : Type) (files : FileSystem (StateM σ)) (path : String), files.Keeps path →
        ∀ s s', (files.write path (document events)).run s = (.ok (), s') →
          ((files.read path).run s').1 = .ok (text events).toList ∧
            ofFile ((files.read path).run s').1 = .ok events := by
  refine ⟨fun path regular => Directory.keeps_fileSystem regular, ?_⟩
  intro σ files path keeps s s' saved
  have content := keeps _ s s' saved
  rw [content, ← document_eq_text]
  exact ⟨rfl, ofFile_document events⟩

theorem load_of_save_over_longer_file :
    let d : Directory := [("t", "[[4,true],[8,true],[12,false],[16,true],[20,false]]".toList)]
    let events : List Event := [⟨0xffffffffffffffff, false⟩]
    Directory.place "t" ≠ .nullDevice ∧ ∃ d', d.write "t" (document events) = .ok d' ∧
      d'.read "t" = .ok "[\x7b\"pc\":18446744073709551615,\"taken\":false\x7d]".toList ∧
      ofFile (d'.read "t") = .ok events := by
  intro d events
  have leads : Directory.place "t" = .name "t" false := by
    have parts : "t".splitOn "/" = ["t"] := by cbv
    rw [Directory.place, parts]
    decide
  have regular : Directory.place "t" ≠ .nullDevice := by
    rw [leads]
    decide
  have saved : d.write "t" (document events) = .ok (d.insert "t" (document events)) := by
    rw [Directory.write, leads]
  obtain ⟨keeps, loads⟩ := load_of_save events
  have ran : (Directory.fileSystem.write "t" (document events)).run d =
      (.ok (), d.insert "t" (document events)) := by
    rw [Directory.run_write, saved]
  have loaded := loads Directory Directory.fileSystem "t" (keeps "t" regular) d _ ran
  exact ⟨regular, _, saved, loaded⟩

end Trace

end BranchSim
