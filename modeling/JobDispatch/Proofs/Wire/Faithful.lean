import JobDispatch.CommandLine.Program
import JobDispatch.Proofs.Json.Tagged
import JobDispatch.Proofs.Snapshot
set_option autoImplicit false

/- What is written of a value is decoded to that value. A decoder takes many more spellings than are
written, but each of them settles after one turn: what it is decoded to is decoded again from what
is written of that. -/
namespace JobDispatch

open Json (Value Decoder RecordDecoder Layout)
open Json.Decode Json.RecordDecoder

namespace Json

def Value.bytes (layout : Layout) (value : Value) : ByteArray :=
  (String.ofList (value.print layout 0)).toUTF8

def decodeBytes {α : Type} (decode : Decoder α) (content : ByteArray) : Except Fault α :=
  decodeSymbols decode (Text.symbolsOfBytes content)

/-- Every regular value is decoded from its own text, on one line or with any other white space
between its parts. What any bytes are decoded to is regular, and is decoded from its own text. -/
structure Faithful {α : Type} (encode : α → Value) (decode : Decoder α) (regular : α → Prop) :
    Prop where
  reads : ∀ a, regular a → ∀ layout : Layout, layout.IsBlank →
    decodeBytes decode ((encode a).bytes layout) = .ok a
  settles : ∀ content a, decodeBytes decode content = .ok a → regular a ∧
    ∀ layout : Layout, layout.IsBlank → decodeBytes decode ((encode a).bytes layout) = .ok a

/-- A value is written as an object, and is decoded from it with its members in any order and
with others among them, as long as these have names of their own and hold texts, truth values or
`null`. -/
structure TakesAnyOrder {α : Type} (encode : α → Value) (decode : Decoder α) : Prop where
  isRecord : ∀ a, ∃ members, encode a = .record members
  reads : ∀ (a : α) (members extras shuffled : List (String × Value)),
    encode a = .record members →
    (∀ extra ∈ extras, extra.1 ∉ members.map Prod.fst ∧ extra.2.IsPlain) →
    shuffled.Perm (members ++ extras) → ∀ layout : Layout, layout.IsBlank →
      decodeBytes decode ((Value.record shuffled).bytes layout) = .ok a

section

variable {α : Type} {encode : α → Value} {decode : Decoder α}

/-- The laws of texts follow from those of values. -/
theorem Faithful.of_values {regular : α → Prop} (writable : ∀ a, (encode a).IsWritable)
    (read : ∀ a, regular a → decode (encode a) = .ok a)
    (closed : ∀ value a, decode value = .ok a → regular a) : Faithful encode decode regular := by
  have reads (a : α) (ordinary : regular a) (layout : Layout) (blank : layout.IsBlank) :
      decodeBytes decode ((encode a).bytes layout) = .ok a :=
    decodeSymbols_print blank (writable a) (read a ordinary)
  refine ⟨reads, ?_⟩
  intro content a decoded
  have ordinary := closed _ a (decodeSymbols_eq_ok.1 decoded).1
  exact ⟨ordinary, reads a ordinary⟩

theorem Value.IsPlain.isWritable {value : Value} (plain : value.IsPlain) : value.IsWritable := by
  cases value with
  | null => trivial
  | bool flag => trivial
  | string content => exact plain
  | _ => exact absurd plain id

theorem Value.IsLeaf.isWritable {value : Value} (leaf : value.IsLeaf) : value.IsWritable := by
  cases leaf with
  | text content => exact Value.isWritable_text content
  | nat word => exact Value.isWritable_nat word.toNat

/-- What is written of a value is an object that announces its case by a tag. -/
def Announces (encode : α → Value) (decode : Decoder α) (a : α) : Prop :=
  ∃ tag cases members, decode = tagged tag cases ∧ encode a = .record members
    ∧ ReadsTagged tag cases members a

theorem Value.record_injective : Function.Injective Value.record := by
  intro first second same
  refine List.map_injective_iff.2 ?_ (Value.object.inj same)
  rintro ⟨name, value⟩ ⟨other, content⟩ equal
  cases equal
  rfl

theorem takesAnyOrder_of_announces (announces : ∀ a, Announces encode decode a) :
    TakesAnyOrder encode decode where
  isRecord := by
    intro a
    obtain ⟨_, _, members, _, written, _⟩ := announces a
    exact ⟨members, written⟩
  reads := by
    intro a members extras shuffled same unknown order layout blank
    obtain ⟨tag, cases, announced, decodes, written, read⟩ := announces a
    obtain rfl : announced = members := Value.record_injective (written.symm.trans same)
    have all : (Value.record shuffled).IsWritable := by
      apply Value.isWritable_record
      intro member inside
      rcases List.mem_append.1 (order.mem_iff.1 inside) with known | extra
      · exact (read.leaves member known).isWritable
      · exact (unknown member extra).2.isWritable
    rw [decodes]
    exact decodeSymbols_print blank all (read.decode_shuffled unknown order)

theorem faithful_of_announces (announces : ∀ a, Announces encode decode a) :
    Faithful encode decode fun _ => True := by
  refine .of_values ?_ ?_ fun _ _ _ => trivial
  · intro a
    obtain ⟨_, _, members, _, written, read⟩ := announces a
    rw [written]
    exact Value.isWritable_record members fun member inside =>
      (read.leaves member inside).isWritable
  · intro a _
    obtain ⟨tag, cases, members, decodes, written, read⟩ := announces a
    have order : members.Perm (members ++ []) := by rw [List.append_nil]
    rw [decodes, written]
    exact read.decode_shuffled (by simp) order

end

end Json

theorem FailureOutcome.announces (outcome : FailureOutcome) :
    Json.Announces toJson decoder outcome := by
  cases outcome with
  | requeued retries maxRetries =>
    refine ⟨_, _, _, rfl, rfl, ?distinct, ?leaves, _, _, _, rfl, rfl, ?reads⟩
    case distinct =>
      show ["status", "retries", "max_retries"].Nodup
      decide
    case leaves =>
      simp only [List.forall_mem_cons]
      exact ⟨.text _, .nat _, .nat _, by simp⟩
    case reads =>
      exact ((reads_field (word32_nat retries)).map requeued).seq
        (reads_field (word32_nat maxRetries))
  | failedPermanently retries errorMessage =>
    refine ⟨_, _, _, rfl, rfl, ?distinct, ?leaves, _, _, _, rfl, rfl, ?reads⟩
    case distinct =>
      show ["status", "retries", "error_message"].Nodup
      decide
    case leaves =>
      simp only [List.forall_mem_cons]
      exact ⟨.text _, .nat _, .text _, by simp⟩
    case reads =>
      exact ((reads_field (word32_nat retries)).map failedPermanently).seq
        (reads_field (text_text errorMessage))

theorem AssignmentOutcome.announces (outcome : AssignmentOutcome) :
    Json.Announces toJson decoder outcome := by
  cases outcome with
  | assigned job engine =>
    refine ⟨_, _, _, rfl, rfl, ?distinct, ?leaves, _, _, _, rfl, rfl, ?reads⟩
    case distinct =>
      show ["outcome", "job_id", "engine_id"].Nodup
      decide
    case leaves =>
      simp only [List.forall_mem_cons]
      exact ⟨.text _, .text _, .text _, by simp⟩
    case reads =>
      exact ((reads_field (uuid_text job)).map assigned).seq (reads_field (text_text engine))
  | noPendingJobs =>
    refine ⟨_, _, _, rfl, rfl, List.nodup_singleton _, ?leaves, _, _, _, rfl, rfl, reads_pure _⟩
    case leaves =>
      simp only [List.forall_mem_cons]
      exact ⟨.text _, by simp⟩
  | noEligibleEngines job =>
    refine ⟨_, _, _, rfl, rfl, ?distinct, ?leaves, _, _, _, rfl, rfl, ?reads⟩
    case distinct =>
      show ["outcome", "job_id"].Nodup
      decide
    case leaves =>
      simp only [List.forall_mem_cons]
      exact ⟨.text _, .text _, by simp⟩
    case reads => exact (reads_field (uuid_text job)).map noEligibleEngines

section Inspection

variable {board : Board}

/-- What is printed of a board is its listing, with the end of the line behind it. -/
theorem Report.read_json (board : Board) :
    Json.Document.read (Text.symbolsOfBytes (Report.json board).toUTF8) =
      ⟨Report.listing board, true⟩ := by
  have writable : (Report.listing board).IsWritable := by
    apply Json.Value.isWritable_record
    simp only [List.forall_mem_cons]
    exact ⟨Json.Value.areWritable_map Job.isWritable_toJson _,
      Json.Value.areWritable_map Engine.isWritable_toJson _, by simp⟩
  have line : Report.json board =
      String.ofList ((Report.listing board).print .indented 0 ++ ['\n']) := by
    simp [Report.json, Report.lines, Value.indentedText, String.join]
  rw [line]
  exact Json.read_text Json.isBlank_indented writable ['\n'] (by simp [Json.isGap])

/-- The items of the listing are decoded to the records of the board. -/
theorem Board.Storable.decode_listing (storable : board.Storable) :
    (board.jobs.records.map Job.toJson).mapM Job.fields.decode = .ok board.jobs.records
      ∧ (board.engines.records.map Engine.toJson).mapM Engine.fields.decode =
        .ok board.engines.records := by
  constructor
  · refine list_array fun job inside => ?_
    obtain ⟨key, found⟩ := Ledger.mem_records_iff.1 inside
    exact job.decode_toJson (storable.jobs key job found).2.2
  · refine list_array fun engine inside => ?_
    obtain ⟨key, found⟩ := Ledger.mem_records_iff.1 inside
    exact engine.decode_toJson (storable.engines key engine found).2

end Inspection

/-- Every type that is written as text is read back from it, whatever texts, times and finite
numbers it holds, and whatever is read of it settles after one turn. The two kinds of outcome are
read from their members in any order. What is printed of a document that is accepted are lists of
exactly its jobs and its engines, in their order. -/
theorem wire_types_faithful :
    Json.Faithful Job.toJson Job.fields.decode (fun job => job.jobSize.isFinite = true)
      ∧ Json.Faithful Engine.toJson Engine.fields.decode Engine.IsFinite
      ∧ Json.Faithful Heartbeat.toJson Heartbeat.fields.decode
        (fun heartbeat => heartbeat.storageCapacity.isFinite = true)
      ∧ Json.Faithful JobRequest.toJson JobRequest.fields.decode
        (fun request => request.jobSize.isFinite = true)
      ∧ Json.Faithful JobStatus.toJson JobStatus.decoder (fun _ => True)
      ∧ Json.Faithful EngineStatus.toJson EngineStatus.decoder (fun _ => True)
      ∧ Json.Faithful AssignmentOutcome.toJson AssignmentOutcome.decoder (fun _ => True)
      ∧ Json.TakesAnyOrder AssignmentOutcome.toJson AssignmentOutcome.decoder
      ∧ Json.Faithful FailureOutcome.toJson FailureOutcome.decoder (fun _ => True)
      ∧ Json.TakesAnyOrder FailureOutcome.toJson FailureOutcome.decoder
      ∧ Json.Faithful Statistics.toJson Statistics.fields.decode Statistics.FitsWords
      ∧ ∀ (options : CommandLine.InspectOptions) (content : ByteArray) (board : Board),
        options.format = .json → Board.ofBytes? content = .ok board →
          ∃ printed jobs engines, options.run (.file content) = ⟨0, printed⟩
            ∧ Json.Document.read (Text.symbolsOfBytes printed.toUTF8) =
              ⟨.record [("jobs", .array jobs), ("engines", .array engines)], true⟩
            ∧ jobs.mapM Job.fields.decode = .ok board.jobs.records
            ∧ engines.mapM Engine.fields.decode = .ok board.engines.records := by
  refine ⟨.of_values Job.isWritable_toJson Job.decode_toJson fun _ _ => Job.isFinite_of_decode,
    .of_values Engine.isWritable_toJson Engine.decode_toJson fun _ _ => Engine.isFinite_of_decode,
    .of_values Heartbeat.isWritable_toJson Heartbeat.decode_toJson
      fun _ _ => Heartbeat.isFinite_of_decode,
    .of_values JobRequest.isWritable_toJson JobRequest.decode_toJson
      fun _ _ => JobRequest.isFinite_of_decode,
    .of_values (fun _ => Json.Value.isWritable_text _) (fun status _ => status.decoder_toJson)
      fun _ _ _ => trivial,
    .of_values (fun _ => Json.Value.isWritable_text _) (fun status _ => status.decoder_toJson)
      fun _ _ _ => trivial,
    Json.faithful_of_announces AssignmentOutcome.announces,
    Json.takesAnyOrder_of_announces AssignmentOutcome.announces,
    Json.faithful_of_announces FailureOutcome.announces,
    Json.takesAnyOrder_of_announces FailureOutcome.announces,
    .of_values Statistics.isWritable_toJson Statistics.decode_toJson
      fun _ _ => Statistics.fitsWords_of_decode, ?_⟩
  intro options content board asked accepted
  have storable := Board.storable_of_ofBytes? accepted
  have run : options.run (.file content) = ⟨0, Report.json board⟩ := by
    simp only [CommandLine.InspectOptions.run, Disk.load, accepted, Except.map, asked,
      CommandLine.Format.render, if_true]
  exact ⟨_, _, _, run, Report.read_json board, storable.decode_listing⟩

/-- A report in another spelling, an outcome whose tag comes last, and a document with one job and
one engine. -/
theorem wire_types_faithful_respelled :
    let report : Heartbeat := ⟨"ä😀", .busy, Binary64.zero true⟩
    let time : Time.Instant := ⟨1483228799, 1500000000, by decide, by decide⟩
    let job := Job.submitted ⟨List.replicate 32 10, rfl⟩ ⟨"in", "out", Binary64.zero true, 1⟩ time
    let engine := Engine.registered report time
    let board : Board := ⟨⟨[(job.id, job)], by simp⟩, ⟨[(engine.id, engine)], by simp⟩⟩
    Json.decodeBytes Heartbeat.fields.decode
        "[\"\\u00e4\\ud83d\\ude00\", \x7b\"busy\": null\x7d, -0]".toUTF8 = .ok report
      ∧ Json.decodeBytes Heartbeat.fields.decode (report.toJson.bytes .compact) = .ok report
      ∧ Json.decodeBytes FailureOutcome.decoder (Value.bytes .indented (.record
        [("note", .null), ("error_message", .text "\"ä\"\n"), ("retries", .nat 4),
          ("status", .text "failed_permanently")])) = .ok (.failedPermanently 4 "\"ä\"\n")
      ∧ ∃ printed jobs engines, CommandLine.InspectOptions.run ⟨"state.json", .json⟩
          (.file board.documentBytes) = ⟨0, printed⟩
        ∧ Json.Document.read (Text.symbolsOfBytes printed.toUTF8) =
          ⟨.record [("jobs", .array jobs), ("engines", .array engines)], true⟩
        ∧ jobs.mapM Job.fields.decode = .ok [job]
        ∧ engines.mapM Engine.fields.decode = .ok [engine] := by
  intro report time job engine board
  obtain ⟨-, -, heartbeats, -, -, -, -, -, -, outcomes, -, inspections⟩ := wire_types_faithful
  have respelled : Json.decodeBytes Heartbeat.fields.decode
      "[\"\\u00e4\\ud83d\\ude00\", \x7b\"busy\": null\x7d, -0]".toUTF8 = .ok report := by
    rw [Json.decodeBytes, show Text.symbolsOfBytes (String.toUTF8 _) = _ from
      Text.symbolsOfBytes_toByteArray _, Text.symbols, show String.toList _ = _ from
      String.toList_ofList]
    decide +kernel
  have storable : board.Storable := by decide +kernel
  refine ⟨respelled, (heartbeats.settles _ report respelled).2 .compact Json.isBlank_compact,
    outcomes.reads (.failedPermanently 4 "\"ä\"\n") _ [("note", .null)] _ rfl ?_
      (List.reverse_perm _) .indented Json.isBlank_indented,
    inspections ⟨"state.json", .json⟩ board.documentBytes board rfl
      (Board.ofBytes?_documentBytes storable)⟩
  intro extra inside
  rw [List.mem_singleton] at inside
  subst inside
  refine ⟨?_, trivial⟩
  show "note" ∉ ["status", "retries", "error_message"]
  decide

end JobDispatch
