import Orchestrator.Models.Fallible
import Orchestrator.Models.Mappings
import Orchestrator.Models.Resources
import Orchestrator.Repository.InMemory
import Orchestrator.Text.SplitLines
import Orchestrator.Text.Utf8

/-!
# Diagnostics — the logs of a build

`route_logs.py`: what is read of the logs of a build's services, within 200 lines and 64 KiB for
all of them.

* `LogStream`, `scan`, `readTail`: a stream, of which the end is kept.
* `Docker`, `serviceText`: the text of one service, or what is said in its place.
* `collectLoop`, `collect`: all services, each with what the others have left.
* `scan_ends`: what the loop has kept is the end of what it has read.
* `collected_logs`: the bounds, and which part of a log is kept.
-/

namespace Orchestrator.BuildLogCollector

open SplitLines (splitLines)
open Utf8 (encode decodeReplace decodeIgnore)

/-! ### Streams -/

/-- `l[-n:]`. -/
def takeLast {α : Type} (n : Nat) (l : List α) : List α :=
  if n = 0 then l else l.drop (l.length - n)

inductive Chunk where
  | bytes (data : List UInt8)
  | text (s : String)
  | other

/-- The bytes of a chunk, which must be bytes or a text. -/
def Chunk.data : Chunk → Except Exc (List UInt8)
  | .bytes data => .ok data
  | .text s => .ok (encode s.toList)
  | .other => .error (exc .valueError "Unexpected Docker log data")

/-- What comes next from a stream; `late` tells whether the deadline has passed when it is there. -/
inductive Yield where
  | chunk (c : Chunk) (late : Bool)
  | stop
  | raises (e : Exc)

/-- What `Service.logs` answers. -/
inductive LogStream where
  | single (c : Chunk) (late : Bool)
  | mapping
  | notIterable
  /-- The first, second, … that comes. -/
  | chunks (next : Nat → Yield)

/-- `iter(stream)`. -/
def LogStream.iter : LogStream → Except Exc (Nat → Yield)
  | .single c late => .ok fun
      | 0 => .chunk c late
      | _ => .stop
  | .mapping => .error (exc .valueError "Unexpected Docker log stream")
  | .notIterable => .error (exc .typeError "object is not iterable")
  | .chunks next => .ok next

def scanBound : Exc := exc .valueError "Docker log scan exceeded its bound"

/-- The loop of `_read_tail`: it is at the chunk `i`, and `left` chunks more may come. -/
def scan (next : Nat → Yield) (maxBytes left i scanned : Nat) (tail : List UInt8) :
    Except Exc (List UInt8) :=
  match next i with
  | .stop => .ok tail
  | .raises e => .error e
  | .chunk c late => match c.data with
      | .error e => .error e
      | .ok data => match left with
          | 0 => .error scanBound
          | left + 1 =>
              if 4 * 1024 * 1024 < scanned + data.length ∨ late = true then .error scanBound
              else scan next maxBytes left (i + 1) (scanned + data.length)
                (takeLast maxBytes (tail ++ takeLast maxBytes data))

/-- `_read_tail`. -/
def readTail (stream : LogStream) (maxLines maxBytes : Nat) : Except Exc String := do
  let next ← stream.iter
  let tail ← scan next maxBytes 4096 0 0 []
  .ok (String.ofList (takeLast maxLines (splitLines (decodeReplace tail))).flatten)

/-! ### Services -/

/-- What Docker answers: whether the target is the one it should be, whether the service is there,
whether it belongs to the build, and its logs. -/
structure Docker where
  targetClient : String → Except Exc Unit
  find : BuildResource → Except Exc Bool
  assertOwner : BuildResource → Except Exc Unit
  logs : BuildResource → Nat → Except Exc LogStream

/-- The logs of a service that is there. -/
def presentText (d : Docker) (r : BuildResource) (bytes lines : Nat) : Except Exc String := do
  d.assertOwner r
  let stream ← d.logs r (min 100 lines)
  let text ← readTail stream (min 100 lines) bytes
  .ok (if text = "" then "Swarm service has not emitted stdout/stderr logs" else text)

/-- The text of a service, where nothing is raised. -/
def serviceText (d : Docker) (r : BuildResource) (bytes lines : Nat) : Except Exc String :=
  if r.nativeId = none ∨ r.nativeId = some "" then
    .error (exc .resourceConflict "Service has no recorded immutable identity")
  else do
    d.targetClient r.target
    let found ← d.find r
    if found then presentText d r bytes lines
    else .ok "Tracked Swarm service is no longer present"

/-- Errors of a driver can name an address, and are not shown. -/
def errorText (e : Exc) : String :=
  if e.kind = .resourceConflict then
    "Swarm service identity or build ownership could not be verified; no logs were read"
  else "Swarm stdout/stderr logs could not be read from the controlled Docker endpoint"

/-- The text of a service. -/
def collectText (d : Docker) (r : BuildResource) (bytes lines : Nat) : String :=
  match serviceText d r bytes lines with
  | .ok text => text
  | .error e => errorText e

/-- The end of a text, within the bytes and the lines that are left. -/
def cut (bytes lines : Nat) (text : String) : String :=
  let encoded := takeLast bytes (encode text.toList)
  String.ofList ((splitLines (decodeIgnore encoded)).take lines).flatten

/-- What is kept of a service. -/
def kept (d : Docker) (r : BuildResource) (bytes lines : Nat) : String :=
  cut bytes lines (collectText d r bytes lines)

/-! ### The collection -/

def byteCount (text : String) : Nat := (encode text.toList).length

def lineCount (text : String) : Nat := (splitLines text.toList).length

/-- The name, or where it is taken the name with the target. -/
def keyFor (output : List (String × String)) (r : BuildResource) : String :=
  if r.name ∈ output.map Prod.fst then s!"{r.name}@{r.target}" else r.name

/-- The loop over the services, with the bytes and the lines that are left. -/
def collectLoop (d : Docker) : List BuildResource → Nat → Nat → List (String × String) →
    List (String × String)
  | [], _, _, output => output
  | r :: services, bytes, lines, output =>
      if bytes = 0 ∨ lines = 0 then output
      else
        let text := kept d r bytes lines
        collectLoop d services (bytes - byteCount text) (lines - lineCount text)
          (Mapping.assign output (keyFor output r) text)

/-- What the repository answers; `get_build` may be missing. -/
structure Records where
  getBuildResources : Except Exc (Option BuildResources)
  /-- The application of the build, if there is one. -/
  getBuild : Option (Except Exc (Option String))

/-- The services that are recorded, or what is said in their place. -/
def recordedServices (records : Records) (buildId : BuildId) :
    Except String (List BuildResource) :=
  match records.getBuildResources with
  | .error _ => .error "Build resource manifest could not be read"
  | .ok none => .error "Build resource manifest is unavailable; no logs were read"
  | .ok (some manifest) =>
      let services := manifest.resources.filter fun r =>
        r.kind == .service && r.managed && r.state != .removed
      if manifest.buildId ≠ buildId then
        .error "Build resource manifest is unavailable; no logs were read"
      else match records.getBuild with
        | none => .ok services
        | some (.error _) => .error "Build resource manifest could not be read"
        | some (.ok appid) =>
            if appid = some manifest.appid then .ok services
            else .error "Build ownership could not be verified; no logs were read"

/-- `collect`; without a cleaner no service is read. -/
def collect (records : Records) (cleaner : Except Exc Docker) (buildId : BuildId) :
    List (String × String) :=
  match recordedServices records buildId with
  | .error message => [("_collector", message)]
  | .ok services =>
      if services = [] then
        [("_collector", "No managed Swarm services are recorded for this build")]
      else match cleaner with
        | .error _ => [("_collector", "Controlled Docker log endpoint is unavailable")]
        | .ok d => collectLoop d services 65536 200 []

/-! ### What the loop keeps -/

theorem takeLast_suffix {α : Type} (n : Nat) (l : List α) : takeLast n l <:+ l := by
  rw [takeLast]
  split
  · exact List.suffix_rfl
  · exact List.drop_suffix _ _

theorem length_takeLast_le {α : Type} {n : Nat} (hn : n ≠ 0) (l : List α) :
    (takeLast n l).length ≤ n := by
  rw [takeLast, if_neg hn, List.length_drop]
  omega

theorem takeLast_eq_self {α : Type} {n : Nat} {l : List α} (h : l.length ≤ n) :
    takeLast n l = l := by
  rw [takeLast]
  split
  · rfl
  · rw [Nat.sub_eq_zero_of_le h, List.drop_zero]

/-- The end of a suffix that is long enough is the end of the whole. -/
theorem takeLast_append {α : Type} {n : Nat} (hn : n ≠ 0) (a b : List α) :
    takeLast n (a ++ b) = if n ≤ b.length then takeLast n b else
      takeLast (n - b.length) a ++ b := by
  rw [takeLast, if_neg hn, List.length_append, List.drop_append]
  split
  · next h =>
      rw [takeLast, if_neg hn, List.drop_eq_nil_of_le (by omega), List.nil_append]
      congr 1
      omega
  · next h =>
      rw [takeLast, if_neg (by omega)]
      have hzero : a.length + b.length - n - a.length = 0 := by omega
      rw [hzero, List.drop_zero]
      congr 2
      omega

/-- Cutting the parts first changes nothing. -/
theorem takeLast_takeLast_append {α : Type} {n : Nat} (hn : n ≠ 0) (a b : List α) :
    takeLast n (takeLast n a ++ b) = takeLast n (a ++ b) := by
  rw [takeLast_append hn, takeLast_append hn]
  split
  · rfl
  · next h =>
      have hpos : n - b.length ≠ 0 := by omega
      rw [takeLast, takeLast, takeLast, if_neg hpos, if_neg hn, if_neg hpos, List.drop_drop,
        List.length_drop]
      congr 2
      omega

theorem takeLast_append_takeLast {α : Type} {n : Nat} (hn : n ≠ 0) (a b : List α) :
    takeLast n (a ++ takeLast n b) = takeLast n (a ++ b) := by
  by_cases h : b.length ≤ n
  · rw [takeLast_eq_self h]
  · have hlength : (takeLast n b).length = n := by
      rw [takeLast, if_neg hn, List.length_drop]
      omega
    rw [takeLast_append hn, takeLast_append hn, if_pos (by omega), if_pos (by omega),
      takeLast_eq_self (by omega)]

/-- From the chunk `i` on, a stream yields these bytes and ends. -/
inductive Ends (next : Nat → Yield) : Nat → List UInt8 → Prop
  | stop {i : Nat} : next i = .stop → Ends next i []
  | chunk {i : Nat} {c : Chunk} {late : Bool} {data rest : List UInt8} :
      next i = .chunk c late → c.data = .ok data → Ends next (i + 1) rest →
        Ends next i (data ++ rest)

/-- **The end of a stream.**  Where the loop comes to an end, so does the stream, and what is kept
is the end of what it has yielded. -/
theorem scan_ends {next : Nat → Yield} {maxBytes : Nat} (hmax : maxBytes ≠ 0) {left : Nat} :
    ∀ {i scanned : Nat} {tail result : List UInt8}, tail.length ≤ maxBytes →
      scan next maxBytes left i scanned tail = .ok result →
      ∃ data, Ends next i data ∧ result = takeLast maxBytes (tail ++ data) := by
  have hstop {i : Nat} {tail : List UInt8} (htail : tail.length ≤ maxBytes)
      (hn : next i = .stop) : ∃ data, Ends next i data ∧ tail = takeLast maxBytes (tail ++ data) :=
    ⟨[], .stop hn, by rw [List.append_nil, takeLast_eq_self htail]⟩
  induction left with
  | zero =>
      intro i scanned tail result htail h
      rw [scan.eq_def] at h
      split at h
      · next hn =>
          cases h
          exact hstop htail hn
      · cases h
      · split at h <;> cases h
  | succ left ih =>
      intro i scanned tail result htail h
      rw [scan.eq_def] at h
      split at h
      · next hn =>
          cases h
          exact hstop htail hn
      · cases h
      · next c late hn =>
          split at h
          · cases h
          · next data hdata =>
              dsimp only at h
              split at h
              · cases h
              · obtain ⟨rest, hrest, rfl⟩ := ih (length_takeLast_le hmax _) h
                refine ⟨data ++ rest, .chunk hn hdata hrest, ?_⟩
                rw [takeLast_append_takeLast hmax, takeLast_takeLast_append hmax,
                  List.append_assoc]

/-! ### The text of a service -/

/-- What is read of a stream: a suffix of what its last bytes are read as, in few lines. -/
theorem readTail_spec {stream : LogStream} {maxLines maxBytes : Nat} (hlines : maxLines ≠ 0)
    (hbytes : maxBytes ≠ 0) {text : String} (h : readTail stream maxLines maxBytes = .ok text) :
    ∃ next data, stream.iter = .ok next ∧ Ends next 0 data ∧
      text.toList <:+ decodeReplace (takeLast maxBytes data) ∧ lineCount text ≤ maxLines ∧
      (data ≠ [] → text ≠ "") := by
  obtain ⟨next, hnext, h⟩ := bind_ok h
  obtain ⟨tail, htail, h⟩ := bind_ok h
  obtain ⟨data, hdata, rfl⟩ := scan_ends hbytes (Nat.zero_le _) htail
  rw [List.nil_append] at h
  have htext := Except.ok.inj h
  have hlist : text.toList =
      ((splitLines (decodeReplace (takeLast maxBytes data))).drop
        ((splitLines (decodeReplace (takeLast maxBytes data))).length - maxLines)).flatten := by
    rw [← htext, String.toList_ofList, takeLast, if_neg hlines]
  refine ⟨next, data, hnext, hdata, ?_, ?_, fun hne hempty => ?_⟩
  · rw [hlist]
    exact SplitLines.flatten_drop_suffix _ _
  · rw [lineCount, hlist, SplitLines.splitLines_flatten_drop, List.length_drop]
    omega
  · -- The last line of something that is read is not empty.
    have hread : decodeReplace (takeLast maxBytes data) ≠ [] := by
      refine Utf8.decodeReplace_ne_nil fun hnil => hne ?_
      rw [takeLast, if_neg hbytes, List.drop_eq_nil_iff] at hnil
      have : data.length = 0 := by omega
      exact List.length_eq_zero_iff.mp this
    rw [hempty] at hlist
    have hsplit := SplitLines.splitLines_flatten_drop (decodeReplace (takeLast maxBytes data))
      ((splitLines (decodeReplace (takeLast maxBytes data))).length - maxLines)
    rw [← hlist] at hsplit
    have hlength := congrArg List.length hsplit
    rw [List.length_drop] at hlength
    have hflat := SplitLines.flatten_splitLines (decodeReplace (takeLast maxBytes data))
    have hzero : (splitLines (decodeReplace (takeLast maxBytes data))).length = 0 := by
      have : (splitLines ("" : String).toList).length = 0 := rfl
      omega
    rw [List.length_eq_zero_iff.mp hzero] at hflat
    exact hread hflat.symm

/-- A text with few enough lines is only cut at its front. -/
theorem cut_spec {bytes lines : Nat} {text : String} (hbytes : bytes ≠ 0)
    (hlines : lineCount text ≤ lines) :
    (cut bytes lines text).toList <:+ text.toList ∧ byteCount (cut bytes lines text) ≤ bytes ∧
      lineCount (cut bytes lines text) ≤ lineCount text := by
  have hdrop : takeLast bytes (encode text.toList) =
      (encode text.toList).drop ((encode text.toList).length - bytes) := by
    rw [takeLast, if_neg hbytes]
  obtain ⟨hsuffix, hlength⟩ :=
    Utf8.decodeIgnore_drop text.toList ((encode text.toList).length - bytes)
  have hcount := SplitLines.length_splitLines_suffix hsuffix
  have hcut : (cut bytes lines text).toList =
      decodeIgnore ((encode text.toList).drop ((encode text.toList).length - bytes)) := by
    rw [cut, String.toList_ofList, hdrop, List.take_of_length_le (hcount.trans hlines),
      SplitLines.flatten_splitLines]
  rw [byteCount, lineCount, hcut]
  refine ⟨hsuffix, hlength.trans ?_, hcount⟩
  omega

theorem lineCount_errorText (e : Exc) : lineCount (errorText e) = 1 := by
  rw [errorText]
  split <;> decide +kernel

/-- The text of a service has few lines, if any are left. -/
theorem lineCount_collectText (d : Docker) (r : BuildResource) {bytes lines : Nat}
    (hbytes : bytes ≠ 0) (hlines : lines ≠ 0) :
    lineCount (collectText d r bytes lines) ≤ min 100 lines := by
  have hone : 1 ≤ min 100 lines := by omega
  rw [collectText]
  cases h : serviceText d r bytes lines with
  | error e => exact (lineCount_errorText e).trans_le hone
  | ok text =>
      dsimp only
      unfold serviceText at h
      split at h
      · cases h
      · obtain ⟨-, -, h⟩ := bind_ok h
        obtain ⟨found, -, h⟩ := bind_ok h
        split at h
        · obtain ⟨-, -, h⟩ := bind_ok h
          obtain ⟨stream, -, h⟩ := bind_ok h
          obtain ⟨tail, htail, h⟩ := bind_ok h
          cases h
          split
          · exact (show lineCount "Swarm service has not emitted stdout/stderr logs" = 1 by
              decide +kernel).trans_le hone
          · obtain ⟨-, -, -, -, -, hcount, -⟩ := readTail_spec (by omega) hbytes htail
            exact hcount
        · cases h
          exact (show lineCount "Tracked Swarm service is no longer present" = 1 by
            decide +kernel).trans_le hone

/-- The stream of a service that is reached is read to its end, and has yielded these bytes. -/
structure ReadsToEnd (d : Docker) (r : BuildResource) (bytes lines : Nat) (data : List UInt8) :
    Prop where
  identity : r.nativeId ≠ none ∧ r.nativeId ≠ some ""
  target : d.targetClient r.target = .ok ()
  found : d.find r = .ok true
  owned : d.assertOwner r = .ok ()
  stream : ∃ stream text next, d.logs r (min 100 lines) = .ok stream ∧
    readTail stream (min 100 lines) bytes = .ok text ∧ stream.iter = .ok next ∧ Ends next 0 data

theorem Ends.unique {next : Nat → Yield} {i : Nat} {data data' : List UInt8}
    (h : Ends next i data) (h' : Ends next i data') : data = data' := by
  induction h generalizing data' with
  | stop hn =>
      cases h' with
      | stop _ => rfl
      | chunk hn' _ _ => cases hn.symm.trans hn'
  | chunk hn hdata _ ih =>
      cases h' with
      | stop hn' => cases hn.symm.trans hn'
      | chunk hn' hdata' hrest' =>
          cases hn.symm.trans hn'
          cases hdata.symm.trans hdata'
          rw [ih hrest']

/-- What is kept of a stream that has yielded anything is the end of what its last bytes are read
as. -/
theorem kept_newest {d : Docker} {r : BuildResource} {bytes lines : Nat} {data : List UInt8}
    (hbytes : bytes ≠ 0) (hlines : lines ≠ 0) (h : ReadsToEnd d r bytes lines data)
    (hdata : data ≠ []) :
    ∃ suffix, suffix <:+ data ∧ (kept d r bytes lines).toList <:+ decodeReplace suffix := by
  obtain ⟨stream, text, next, hlogs, htext, hnext, hends⟩ := h.stream
  obtain ⟨next', data', hnext', hends', hsuffix, -, hne⟩ :=
    readTail_spec (by omega) hbytes htext
  cases hnext.symm.trans hnext'
  obtain rfl := hends.unique hends'
  have hidentity : ¬ (r.nativeId = none ∨ r.nativeId = some "") :=
    fun hno => hno.elim h.identity.1 h.identity.2
  have hcollected : collectText d r bytes lines = text := by
    have hpresent : presentText d r bytes lines = .ok text := by
      rw [presentText, h.owned, hlogs]
      change (readTail stream (min 100 lines) bytes >>= _) = _
      rw [htext]
      exact congrArg Except.ok (if_neg (hne hdata))
    rw [collectText, serviceText, if_neg hidentity, h.target, h.found]
    change (match presentText d r bytes lines with
      | .ok text => text
      | .error e => errorText e) = _
    rw [hpresent]
  have hcount := lineCount_collectText d r hbytes hlines
  have hcut := (cut_spec hbytes (hcount.trans (Nat.min_le_right _ _))).1
  rw [hcollected] at hcut
  refine ⟨takeLast bytes data, takeLast_suffix _ _, ?_⟩
  rw [kept, hcollected]
  exact hcut.trans hsuffix

/-! ### The whole collection -/

/-- What a text of the collection is: what was kept of a service, when something was left. -/
def KeptOf (d : Docker) (services : List BuildResource) (e : String × String) : Prop :=
  ∃ r ∈ services, (e.1 = r.name ∨ e.1 = s!"{r.name}@{r.target}") ∧
    ∃ bytes lines, bytes ≠ 0 ∧ lines ≠ 0 ∧ e.2 = kept d r bytes lines

/-- The bounds of a collection, in bytes and lines. -/
structure Within (bytes lines : Nat) (output : List (String × String)) : Prop where
  bytes_le : (output.map fun e => byteCount e.2).sum ≤ bytes
  lines_le : (output.map fun e => lineCount e.2).sum ≤ lines
  each : ∀ e ∈ output, lineCount e.2 ≤ 100

/-- **The loop.**  Each service takes its text from what is left. -/
theorem collectLoop_spec (d : Docker) {all services : List BuildResource}
    (hservices : ∀ r ∈ services, r ∈ all) (bytes lines : Nat) :
    ∀ (left used : Nat × Nat) (output : List (String × String)),
      used.1 + left.1 ≤ bytes → used.2 + left.2 ≤ lines → (output.map Prod.fst).Nodup →
      Within used.1 used.2 output → (∀ e ∈ output, KeptOf d all e) →
        Within bytes lines (collectLoop d services left.1 left.2 output) ∧
          ∀ e ∈ collectLoop d services left.1 left.2 output, KeptOf d all e := by
  induction services with
  | nil =>
      intro left used output hb hl _ hw hk
      rw [collectLoop]
      exact ⟨⟨hw.bytes_le.trans (by omega), hw.lines_le.trans (by omega), hw.each⟩, hk⟩
  | cons r services ih =>
      intro left used output hb hl hnodup hw hk
      rw [collectLoop]
      by_cases hzero : left.1 = 0 ∨ left.2 = 0
      · rw [if_pos hzero]
        exact ⟨⟨hw.bytes_le.trans (by omega), hw.lines_le.trans (by omega), hw.each⟩, hk⟩
      rw [if_neg hzero]
      obtain ⟨hbytes, hlines⟩ := not_or.mp hzero
      have hcount := lineCount_collectText d r hbytes hlines
      obtain ⟨-, hkeptBytes, hkeptLines⟩ :=
        cut_spec hbytes (hcount.trans (Nat.min_le_right _ _))
      have hkeptLines := hkeptLines.trans hcount
      change byteCount (kept d r left.1 left.2) ≤ left.1 at hkeptBytes
      change lineCount (kept d r left.1 left.2) ≤ min 100 left.2 at hkeptLines
      dsimp only
      generalize ht : kept d r left.1 left.2 = text at hkeptBytes hkeptLines ⊢
      have hkey : keyFor output r = r.name ∨ keyFor output r = s!"{r.name}@{r.target}" := by
        rw [keyFor]
        split
        · exact .inr rfl
        · exact .inl rfl
      have hentry : KeptOf d all (keyFor output r, text) :=
        ⟨r, hservices r List.mem_cons_self, hkey, left.1, left.2, hbytes, hlines, ht.symm⟩
      -- What is kept goes from what is left to what is used.
      refine ih (fun r hr => hservices r (List.mem_cons_of_mem _ hr))
        (left.1 - byteCount text, left.2 - lineCount text)
        (used.1 + byteCount text, used.2 + lineCount text) _
        (by dsimp only; omega) (by dsimp only; omega) (Mapping.nodup_assign hnodup _ _)
        ⟨?_, ?_, fun e he => ?_⟩ fun e he => ?_
      · have := Mapping.sum_assign_le byteCount hnodup (keyFor output r) text
        have := hw.bytes_le
        omega
      · have := Mapping.sum_assign_le lineCount hnodup (keyFor output r) text
        have := hw.lines_le
        omega
      · rcases Mapping.mem_assign he with he | rfl
        · exact hw.each e he
        · exact hkeptLines.trans (Nat.min_le_left _ _)
      · rcases Mapping.mem_assign he with he | rfl
        · exact hk e he
        · exact hentry

/-- **Collected logs.**  Whatever the repository and Docker answer and the streams yield, a
collection has at most 200 lines and 65536 bytes, and at most 100 lines for a service; and of a
stream that was read to its end and has yielded anything, a suffix of the replacement-decoding of
its last bytes is kept. -/
theorem collected_logs (records : Records) (cleaner : Except Exc Docker) (buildId : BuildId) :
    Within 65536 200 (collect records cleaner buildId) ∧
    ∀ services d, recordedServices records buildId = .ok services → services ≠ [] →
      cleaner = .ok d → ∀ e ∈ collect records cleaner buildId,
        ∃ r ∈ services, (e.1 = r.name ∨ e.1 = s!"{r.name}@{r.target}") ∧
          ∃ bytes lines, bytes ≠ 0 ∧ lines ≠ 0 ∧ e.2 = kept d r bytes lines ∧
            ∀ data, ReadsToEnd d r bytes lines data → data ≠ [] →
              ∃ suffix, suffix <:+ data ∧ e.2.toList <:+ decodeReplace suffix := by
  -- At first everything is left and nothing is used.
  have hloop (services : List BuildResource) (d : Docker) :=
    collectLoop_spec d (fun r (hr : r ∈ services) => hr) 65536 200 (65536, 200) (0, 0) []
      (by decide) (by decide) List.nodup_nil ⟨le_rfl, le_rfl, fun e he => (nomatch he)⟩
      fun e he => (nomatch he)
  -- A message of the collector's own is one short line.
  have hsingle {message : String} (hb : byteCount message ≤ 65536) (hl : lineCount message ≤ 1) :
      Within 65536 200 [("_collector", message)] := by
    refine ⟨?_, ?_, fun e he => ?_⟩
    · simpa using hb
    · simpa using hl.trans (by decide)
    · rw [List.mem_singleton.mp he]
      exact hl.trans (by decide)
  constructor
  · unfold collect
    cases hrecorded : recordedServices records buildId with
    | error message =>
        have hmessage : message ∈ ["Build resource manifest could not be read",
            "Build resource manifest is unavailable; no logs were read",
            "Build ownership could not be verified; no logs were read"] := by
          unfold recordedServices at hrecorded
          dsimp only at hrecorded
          repeat' split at hrecorded
          all_goals first | (cases hrecorded; done) | (cases hrecorded; simp)
        simp only [List.mem_cons, List.not_mem_nil, or_false] at hmessage
        rcases hmessage with rfl | rfl | rfl
        all_goals exact hsingle (by decide +kernel) (by decide +kernel)
    | ok services =>
        dsimp only
        split
        · exact hsingle (by decide +kernel) (by decide +kernel)
        · cases cleaner with
          | error e => exact hsingle (by decide +kernel) (by decide +kernel)
          | ok d => exact (hloop services d).1
  · intro services d hrecorded hne hcleaner e he
    rw [collect, hrecorded] at he
    dsimp only at he
    rw [if_neg hne, hcleaner] at he
    obtain ⟨r, hr, hkey, bytes, lines, hbytes, hlines, hkept⟩ := (hloop services d).2 e he
    refine ⟨r, hr, hkey, bytes, lines, hbytes, hlines, hkept, fun data hreads hdata => ?_⟩
    rw [hkept]
    exact kept_newest hbytes hlines hreads hdata

end Orchestrator.BuildLogCollector
