import Eeveetuber.Application.EventRecorder

/-!
# What is journaled of an event

The recorder hands its sink a record of each event, `Eeveetuber.eventRecord`: the event's
dictionary, and of ephemeral media a dictionary without the audio, which only says how long the
audio was. Of the other classes of retention the dictionary is the record as it is, with all that
is in its payload.

So the audio of an event stays out of the journal exactly when the event is ephemeral media or is
not recorded at all (`Eeveetuber.RecorderRun.records_alike_iff`), whatever else the recorder is
given and in whatever order. The argument goes over runs: a recorder never looks at the payload of
an event, so that exchanging one event for another like it exchanges them in the queue and on the
way to the sink (`Eeveetuber.RecorderRun.view_run`).
-/

namespace Eeveetuber

open Foundation

/-! ### Records -/

/-- What is stored of an event. -/
structure EventRecord (δ : Type) where
  eventId : Text
  eventType : Text
  payload : Mapping Text PyObject
  createdAt : δ
  sessionId : Option Text
  correlationId : Option Text
  causationId : Option Text
  actorId : Option Text

/-- Whether an object is this key of a dictionary. -/
def PyObject.isKey (key : Text) : PyObject → Bool
  | str t => t = key
  | _ => false

/-- `payload.get(key)`. -/
def getItem (items : List (PyObject × PyObject)) (key : Text) : Option PyObject :=
  (items.find? fun item => item.1.isKey key).map Prod.snd

/-- What `payload.pop(key, None)` leaves. -/
def popItem (items : List (PyObject × PyObject)) (key : Text) : List (PyObject × PyObject) :=
  items.filter fun item => !item.1.isKey key

/-- `payload[key] = value`. -/
def setItem (items : List (PyObject × PyObject)) (key : Text) (value : PyObject) :
    List (PyObject × PyObject) :=
  if items.any fun item => item.1.isKey key then
    items.map fun item => if item.1.isKey key then (item.1, value) else item
  else items ++ [(.str key, value)]

/-- The items of a payload without its audio. -/
def redactAudio (items : List (PyObject × PyObject)) : List (PyObject × PyObject) :=
  let rest := popItem items "audio_base64".toList
  match getItem items "audio_base64".toList with
  | some (.str encodedAudio) =>
    setItem (setItem rest "audio_redacted".toList (.bool true)) "audio_base64_chars".toList
      (.int encodedAudio.length)
  | _ => rest

variable {δ : Type} {calendar : IsoCalendar δ}

/-- What is journaled of the dictionary of an event. -/
def journaled (event : Event calendar) : Mapping Text PyObject :=
  match event.toDict.get EventField.payload.name with
  | some (.mapping .dict items) =>
    if event.body.retention = .ephemeralMedia then
      event.toDict.insert (EventField.payload.name, .mapping .dict (redactAudio items))
    else event.toDict
  | _ => event.toDict

/-- `_event_record`. -/
def eventRecord (event : Event calendar) : EventRecord δ where
  eventId := event.eventId.text
  eventType := event.body.type
  payload := journaled event
  createdAt := event.body.occurredAt
  sessionId := event.sessionId.map UUID.text
  correlationId := some event.body.correlationId.text
  causationId := event.body.causationId.map UUID.text
  actorId := event.body.actorId

/-! ### Events that differ in their audio -/

/-- The event with another payload. -/
def Event.withPayload (event : Event calendar) (payload : FrozenPayload) : Event calendar :=
  { event with body := { event.body with payload } }

/-- Two events that are equal but for the text of their audio, which is of the same length. -/
structure DifferInAudio (e e' : Event calendar) : Prop where
  others : e' = e.withPayload e'.body.payload
  payload : ∃ kind front back audio audio', audio.length = audio'.length ∧
    e.body.payload.value =
      .mapping kind (front ++ (.str "audio_base64".toList, .str audio) :: back) ∧
    e'.body.payload.value =
      .mapping kind (front ++ (.str "audio_base64".toList, .str audio') :: back)

section

variable {e e' : Event calendar}

theorem write_withPayload (e : Event calendar) (payload : FrozenPayload) {field : EventField}
    (h : field ≠ .payload) : (e.withPayload payload).write field = e.write field := by
  cases field with
  | payload => exact absurd rfl h
  | _ => rfl

theorem get_payload (e : Event calendar) :
    e.toDict.get EventField.payload.name = some (thawJson e.body.payload.value) :=
  e.get_toDict .payload

/-- The dictionaries differ in the payload alone. -/
theorem insert_payload_withPayload (e : Event calendar) (payload : FrozenPayload)
    (value : PyObject) :
    (e.withPayload payload).toDict.insert (EventField.payload.name, value) =
      e.toDict.insert (EventField.payload.name, value) := by
  have hcontains : ∀ e : Event calendar, e.toDict.contains EventField.payload.name = true :=
    fun e => Keyed.contains_iff.mpr ⟨_, Mapping.get_eq_some.mp (e.get_toDict .payload), rfl⟩
  ext1
  rw [Keyed.values_insert, Keyed.values_insert, if_pos (hcontains _), if_pos (hcontains _),
    Event.toDict, Event.toDict, List.map_map, List.map_map]
  refine List.map_congr_left fun field _ => ?_
  rw [Function.comp_apply, Function.comp_apply]
  by_cases hfield : field = .payload
  · rw [hfield, if_pos rfl, if_pos rfl]
  · rw [write_withPayload e payload hfield]

theorem isKey_str (key : Text) : (PyObject.str key).isKey key = true := by
  rw [PyObject.isKey, decide_eq_true_eq]

theorem popItem_append_cons (front back : List (PyObject × PyObject)) (key : Text)
    (value : PyObject) :
    popItem (front ++ (.str key, value) :: back) key = popItem (front ++ back) key := by
  rw [popItem, popItem, List.filter_append, List.filter_append, List.filter_cons_of_neg]
  rw [isKey_str]
  exact Bool.false_ne_true

theorem getItem_append_cons (front back : List (PyObject × PyObject)) (key : Text)
    (value : PyObject) :
    getItem (front ++ (.str key, value) :: back) key = (getItem front key).or (some value) := by
  rw [getItem, getItem, List.find?_append, List.find?_cons_of_pos]
  · rw [Option.map_or]
    rfl
  · exact isKey_str key

/-- Of the audio only its length is left. -/
theorem redactAudio_congr (front back : List (PyObject × PyObject)) {audio audio' : Text}
    (hlength : audio.length = audio'.length) :
    redactAudio (front ++ (.str "audio_base64".toList, .str audio) :: back) =
      redactAudio (front ++ (.str "audio_base64".toList, .str audio') :: back) := by
  rw [redactAudio, redactAudio, popItem_append_cons, popItem_append_cons, getItem_append_cons,
    getItem_append_cons]
  rcases getItem front "audio_base64".toList with _ | value
  · rw [Option.none_or, Option.none_or]
    dsimp only
    rw [hlength]
  · rfl

theorem thawJson_str (t : Text) : thawJson (.str t) = .str t := rfl

/-- **The audio of ephemeral media is not journaled.** -/
theorem eventRecord_of_ephemeral (h : DifferInAudio e e')
    (hretention : e.body.retention = .ephemeralMedia) : eventRecord e = eventRecord e' := by
  obtain ⟨kind, front, back, audio, audio', hlength, hpayload, hpayload'⟩ := h.payload
  have hretention' : e'.body.retention = .ephemeralMedia := by
    rw [h.others]
    exact hretention
  have hjournaled : journaled e = journaled e' := by
    rw [journaled, journaled, get_payload, get_payload, hpayload, hpayload', thawJson, thawJson]
    dsimp only
    rw [if_pos hretention, if_pos hretention', thawItems_eq, thawItems_eq, List.map_append,
      List.map_append, List.map_cons, List.map_cons]
    dsimp only
    rw [thawJson_str, thawJson_str, redactAudio_congr _ _ hlength, h.others,
      insert_payload_withPayload]
  rw [eventRecord, eventRecord, hjournaled, h.others]
  rfl

theorem journaled_of_ne (h : e.body.retention ≠ .ephemeralMedia) : journaled e = e.toDict := by
  rw [journaled]
  split
  · rw [if_neg h]
  · rfl

/-- **All other audio is.** -/
theorem eq_of_eventRecord_eq (h : DifferInAudio e e')
    (hretention : e.body.retention ≠ .ephemeralMedia) (heq : eventRecord e = eventRecord e') :
    e = e' := by
  obtain ⟨kind, front, back, audio, audio', -, hpayload, hpayload'⟩ := h.payload
  have hretention' : e'.body.retention ≠ .ephemeralMedia := by
    rw [h.others]
    exact hretention
  have hdict : e.toDict = e'.toDict := by
    have hjournaled : journaled e = journaled e' := congrArg EventRecord.payload heq
    rwa [journaled_of_ne hretention, journaled_of_ne hretention'] at hjournaled
  have hthaw : thawJson e.body.payload.value = thawJson e'.body.payload.value := by
    have hget := congrArg (Mapping.get · EventField.payload.name) hdict
    rw [get_payload, get_payload] at hget
    exact Option.some.inj hget
  have haudio : audio = audio' := by
    rw [hpayload, hpayload', thawJson, thawJson, PyObject.mapping.injEq, thawItems_eq,
      thawItems_eq, List.map_append, List.map_append, List.map_cons, List.map_cons] at hthaw
    have hitem := (List.cons.inj (List.append_cancel_left hthaw.2)).1
    exact PyObject.str.inj (Prod.mk.inj hitem).2
  have hsame : e.body.payload = e'.body.payload := by
    have hvalue :
        e.body.payload.value = e'.body.payload.value := by rw [hpayload, hpayload', haudio]
    rcases hleft : e.body.payload with ⟨value, frozen, isMapping⟩
    rcases hright : e'.body.payload with ⟨value', frozen', isMapping'⟩
    rw [hleft, hright] at hvalue
    obtain rfl : value = value' := hvalue
    rfl
  rw [h.others, ← hsame]
  rfl

/-- **When records are alike** of events that differ in their audio. -/
theorem eventRecord_eq_iff (h : DifferInAudio e e') :
    eventRecord e = eventRecord e' ↔ e.body.retention = .ephemeralMedia ∨ e = e' := by
  constructor
  · intro heq
    by_cases hretention : e.body.retention = .ephemeralMedia
    · exact .inl hretention
    · exact .inr (eq_of_eventRecord_eq h hretention heq)
  · rintro (hretention | rfl)
    · exact eventRecord_of_ephemeral h hretention
    · rfl

end

/-! ### Exchanging events -/

section

variable (f : Event calendar → Event calendar)

def RecorderTask.map : RecorderTask calendar → RecorderTask calendar
  | persisting event => persisting (f event)
  | notStarted => notStarted
  | ready => ready
  | waiting => waiting
  | finished => finished

/-- The recorder with other events. -/
def AsyncEventRecorder.map (s : AsyncEventRecorder calendar) : AsyncEventRecorder calendar :=
  { s with pending := s.pending.map f, task := s.task.map f }

def RecorderStep.map : RecorderStep calendar → RecorderStep calendar
  | observe event => observe (f event)
  | start => start
  | close => close
  | closeReturns => closeReturns
  | turn accepted => turn accepted
  | wakeUp => wakeUp
  | settle succeeded => settle succeeded

end

namespace RecorderRun

/-- What matters to the sink: the recorder, and what it has handed over. -/
def view (s : RecorderRun calendar) : AsyncEventRecorder calendar × List (Event calendar) :=
  (s.recorder, s.handed)

/-- The records that the sink was given. -/
def records (s : RecorderRun calendar) : List (EventRecord δ) := s.handed.map eventRecord

section

variable {f : Event calendar → Event calendar} {s t : AsyncEventRecorder calendar}
  (hdisplaceable : ∀ event, (f event).displaceable = event.displaceable)
  (hrecordable : ∀ event, (f event).recordable = event.recordable)

include hdisplaceable in
theorem map_makeRoom (s : AsyncEventRecorder calendar) (event : Event calendar) :
    (s.map f).makeRoom (f event) = (s.makeRoom event).map (AsyncEventRecorder.map f) := by
  have hcomp : Event.displaceable ∘ f = Event.displaceable := funext hdisplaceable
  have hany : (s.map f).pending.any Event.displaceable = s.pending.any Event.displaceable := by
    rw [AsyncEventRecorder.map, List.any_map, hcomp]
  have herase : (s.pending.map f).eraseP Event.displaceable =
      (s.pending.eraseP Event.displaceable).map f := by
    rw [List.eraseP_map, hcomp]
  rw [AsyncEventRecorder.makeRoom, AsyncEventRecorder.makeRoom, hdisplaceable]
  by_cases hgives : event.displaceable = true
  · rw [if_pos hgives, if_pos hgives]
    rfl
  rw [if_neg hgives, if_neg hgives]
  by_cases hroom : s.pending.any Event.displaceable = true
  · rw [if_pos hroom, if_pos (hany.trans hroom)]
    exact congrArg (fun pending => some { s.map f with pending, dropped := s.dropped + 1 }) herase
  · rw [if_neg hroom, if_neg fun h => hroom (hany.symm.trans h)]
    rfl

include hdisplaceable hrecordable in
/-- An exchanged event is observed as the event was. -/
theorem map_observe (s : AsyncEventRecorder calendar) (event : Event calendar) :
    (s.map f).observe (f event) = (s.observe event).map f := by
  have henqueue : ∀ s : AsyncEventRecorder calendar,
      (s.map f).enqueue (f event) = (s.enqueue event).map f := by
    intro s
    have happend : s.pending.map f ++ [event].map f = (s.pending ++ [event]).map f :=
      List.map_append.symm
    exact congrArg (fun pending => { s.map f with pending, wake := true }) happend
  rw [AsyncEventRecorder.observe, AsyncEventRecorder.observe, hrecordable,
    map_makeRoom hdisplaceable]
  by_cases hrec : event.recordable = false
  · rw [if_pos hrec, if_pos hrec]
  rw [if_neg hrec, if_neg hrec]
  by_cases hclosed : s.closed = true
  · rw [if_pos hclosed, if_pos (show (s.map f).closed = true from hclosed)]
    rfl
  rw [if_neg hclosed, if_neg (show ¬(s.map f).closed = true from hclosed)]
  have hlength : (s.map f).pending.length = s.pending.length := List.length_map _
  by_cases hfull : s.capacity ≤ s.pending.length
  · rw [if_pos hfull,
      if_pos (show (s.map f).capacity ≤ (s.map f).pending.length from hfull.trans hlength.ge)]
    rcases s.makeRoom event with _ | roomy
    · rfl
    · exact henqueue roomy
  · rw [if_neg hfull, if_neg fun h => hfull (h.trans hlength.le)]
    exact henqueue s

theorem map_turn (s : AsyncEventRecorder calendar) (accepted : Bool) :
    (s.map f).turn accepted = (s.turn accepted).map f := by
  obtain ⟨capacity, pending, wake, task, closed, persisted, dropped, failures, hpos⟩ := s
  rcases pending with _ | ⟨event, pending⟩
  · rcases closed
    · rfl
    · rfl
  · rcases accepted
    · rfl
    · rfl

theorem map_settle (s : AsyncEventRecorder calendar) (succeeded : Bool) :
    (s.map f).settle succeeded = (s.settle succeeded).map f := by
  rcases succeeded
  · rfl
  · rfl

theorem map_close (s : AsyncEventRecorder calendar) : (s.map f).close = s.close.map f := by
  obtain ⟨capacity, pending, wake, task, closed, persisted, dropped, failures, hpos⟩ := s
  rcases closed
  · rfl
  · rfl

theorem map_start (s : AsyncEventRecorder calendar) :
    (s.map f).start = s.start.map (AsyncEventRecorder.map f) := by
  obtain ⟨capacity, pending, wake, task, closed, persisted, dropped, failures, hpos⟩ := s
  cases task with
  | notStarted =>
    rcases closed
    · rfl
    · rfl
  | _ => rfl

end

/-- The view with other events. -/
def mapView (f : Event calendar → Event calendar)
    (v : AsyncEventRecorder calendar × List (Event calendar)) :
    AsyncEventRecorder calendar × List (Event calendar) :=
  (v.1.map f, v.2.map f)

section

variable {f : Event calendar → Event calendar} {s t : RecorderRun calendar}
  (hdisplaceable : ∀ event, (f event).displaceable = event.displaceable)
  (hrecordable : ∀ event, (f event).recordable = event.recordable)

include hdisplaceable hrecordable

/-- **A step exchanges events as it was taken.** -/
theorem view_next (h : t.view = mapView f s.view) (l : RecorderStep calendar) :
    ((recorderMachine calendar).next t (l.map f)).map view =
      (((recorderMachine calendar).next s l).map view).map (mapView f) := by
  have hrecorder : t.recorder = s.recorder.map f := congrArg Prod.fst h
  have hhanded : t.handed = s.handed.map f := congrArg Prod.snd h
  have htask : t.recorder.task = s.recorder.task.map f := by
    rw [hrecorder]
    rfl
  have hclosed : t.recorder.closed = s.recorder.closed := by
    rw [hrecorder]
    rfl
  have hpair : ∀ {r r' : AsyncEventRecorder calendar}, r' = r.map f →
      some (r', t.handed) = some (mapView f (r, s.handed)) :=
    fun hr => congrArg some (Prod.ext hr hhanded)
  cases l with
  | start =>
    dsimp only [RecorderStep.map, recorderMachine]
    rw [hrecorder, map_start]
    rcases s.recorder.start with e | r
    · rfl
    · exact hpair rfl
  | observe event =>
    refine hpair ?_
    rw [hrecorder]
    exact map_observe hdisplaceable hrecordable s.recorder event
  | close =>
    refine hpair ?_
    rw [hrecorder]
    exact map_close s.recorder
  | closeReturns =>
    dsimp only [RecorderStep.map, recorderMachine]
    rw [htask, hclosed]
    cases s.recorder.task with
    | notStarted | finished =>
      dsimp only [RecorderTask.map]
      split
      · exact hpair hrecorder
      · rfl
    | _ => rfl
  | turn accepted =>
    dsimp only [RecorderStep.map, recorderMachine]
    rw [htask]
    cases s.recorder.task with
    | ready =>
      refine congrArg some (Prod.ext ?_ ?_)
      · show t.recorder.turn accepted = _
        rw [hrecorder]
        exact map_turn s.recorder accepted
      · -- what is handed over is the head of the queue
        have hpending : t.recorder.pending = s.recorder.pending.map f := by
          rw [hrecorder]
          rfl
        show t.handed ++ (if accepted then t.recorder.pending.head?.toList else []) =
          (s.handed ++ if accepted then s.recorder.pending.head?.toList else []).map f
        rw [hpending, List.map_append, List.head?_map, hhanded]
        rcases accepted
        · rfl
        · rcases s.recorder.pending.head? with _ | event
          · rfl
          · rfl
    | _ => rfl
  | wakeUp =>
    dsimp only [RecorderStep.map, recorderMachine]
    have hwake : t.recorder.wake = s.recorder.wake := by
      rw [hrecorder]
      rfl
    rw [htask, hwake]
    cases s.recorder.task with
    | waiting =>
      dsimp only [RecorderTask.map]
      split
      · refine hpair ?_
        rw [hrecorder]
        rfl
      · rfl
    | _ => rfl
  | settle succeeded =>
    dsimp only [RecorderStep.map, recorderMachine]
    rw [htask]
    cases s.recorder.task with
    | persisting event =>
      refine hpair ?_
      rw [hrecorder]
      exact map_settle s.recorder succeeded
    | _ => rfl

/-- **Runs exchange events as they are observed.** -/
theorem view_run (h : t.view = mapView f s.view) (ls : List (RecorderStep calendar)) :
    ((recorderMachine calendar).run t (ls.map (RecorderStep.map f))).map view =
      (((recorderMachine calendar).run s ls).map view).map (mapView f) := by
  induction ls generalizing s t with
  | nil => exact congrArg some h
  | cons l ls ih =>
    have hnext := view_next hdisplaceable hrecordable h l
    rw [List.map_cons, Machine.run_cons, Machine.run_cons]
    rcases hs : (recorderMachine calendar).next s l with _ | s'
    · rw [hs] at hnext
      rw [Option.map_eq_none_iff.mp hnext]
      rfl
    · rw [hs] at hnext
      obtain ⟨t', ht, hview⟩ := Option.map_eq_some_iff.mp hnext
      rw [ht]
      exact ih hview

end

/-! ### What the sink is given -/

/-- A recorder that has not been used. -/
def unused (calendar : IsoCalendar δ) (capacity : ℕ) (hpos : 1 ≤ capacity) :
    RecorderRun calendar :=
  { recorder := { capacity, capacity_pos := hpos } }

/-- A step, or the same step with one event in the place of another. -/
def Exchanged (e e' : Event calendar) (l l' : RecorderStep calendar) : Prop :=
  l = l' ∨ l = .observe e ∧ l' = .observe e'

/-- Whichever of two events is observed, and whenever, the sink is given the same records. -/
def RecordsAlike (e e' : Event calendar) : Prop :=
  ∀ capacity hpos ls ls', List.Forall₂ (Exchanged e e') ls ls' →
    ((recorderMachine calendar).run (unused calendar capacity hpos) ls).map records =
      ((recorderMachine calendar).run (unused calendar capacity hpos) ls').map records

section

variable {e e' : Event calendar}

/-- What the sink is given can be told from the exchanged events. -/
theorem records_run {f : Event calendar → Event calendar}
    (hdisplaceable : ∀ event, (f event).displaceable = event.displaceable)
    (hrecordable : ∀ event, (f event).recordable = event.recordable)
    (hrecord : ∀ event, event.recordable = true → eventRecord (f event) = eventRecord event)
    (capacity : ℕ) (hpos : 1 ≤ capacity) (ls : List (RecorderStep calendar)) :
    ((recorderMachine calendar).run (unused calendar capacity hpos) ls).map records =
      (((recorderMachine calendar).run (unused calendar capacity hpos)
        (ls.map (RecorderStep.map f))).map view).map fun v => v.2.map eventRecord := by
  rw [view_run (s := unused calendar capacity hpos) hdisplaceable hrecordable rfl]
  rcases hrun : (recorderMachine calendar).run (unused calendar capacity hpos) ls with _ | r
  · rfl
  · have hstart : (recorderMachine calendar).start (unused calendar capacity hpos) :=
      ⟨capacity, hpos, rfl⟩
    have hreachable := Machine.reachable_of_run hstart hrun
    refine congrArg some ?_
    show r.handed.map eventRecord = (r.handed.map f).map eventRecord
    rw [List.map_map]
    refine List.map_congr_left fun event hevent => ?_
    exact (hrecord event ((recorded_of_reachable hreachable).recordable event hevent)).symm

/-- **Records are alike** if the events are recorded alike, when they are. -/
theorem recordsAlike_of_eventRecord_eq (h : DifferInAudio e e')
    (hrecord : e.recordable = true → eventRecord e = eventRecord e') : RecordsAlike e e' := by
  classical
  have htype : e'.body.type = e.body.type := by
    rw [h.others]
    rfl
  have hretention : e'.body.retention = e.body.retention := by
    rw [h.others]
    rfl
  intro capacity hpos ls ls' hls
  -- one event in the place of the other, wherever it is
  let f : Event calendar → Event calendar := fun event => if event = e then e' else event
  have hf : ∀ {P : Event calendar → Event calendar → Prop}, P e' e → (∀ event, P event event) →
      ∀ event, P (f event) event := by
    intro P he hself event
    by_cases hevent : event = e
    · rw [hevent, show f e = e' from if_pos rfl]
      exact he
    · rw [show f event = event from if_neg hevent]
      exact hself event
  have hdisplaceable : ∀ event, (f event).displaceable = event.displaceable := by
    refine hf (P := fun event' event => event'.displaceable = event.displaceable) ?_ fun _ => rfl
    rw [Event.displaceable, Event.displaceable, hretention]
  have hrecordable : ∀ event, (f event).recordable = event.recordable := by
    refine hf (P := fun event' event => event'.recordable = event.recordable) ?_ fun _ => rfl
    rw [Event.recordable, Event.recordable, htype]
  have hrecords : ∀ event, event.recordable = true → eventRecord (f event) = eventRecord event :=
    hf (P := fun event' event => event.recordable = true → eventRecord event' = eventRecord event)
      (fun he => (hrecord he).symm) fun event _ => rfl
  have hmap : ls.map (RecorderStep.map f) = ls'.map (RecorderStep.map f) := by
    induction hls with
    | nil => rfl
    | cons hstep _ ih =>
      rw [List.map_cons, List.map_cons, ih]
      obtain rfl | ⟨rfl, rfl⟩ := hstep
      · rfl
      · have he : f e = e' := if_pos rfl
        have he' : f e' = e' := by
          by_cases hsame : e' = e
          · exact if_pos hsame
          · exact if_neg hsame
        rw [RecorderStep.map, RecorderStep.map, he, he']
  rw [records_run hdisplaceable hrecordable hrecords, hmap,
    ← records_run hdisplaceable hrecordable hrecords]

/-- An event that may be recorded is handed to the sink. -/
theorem records_of_one (h : e.recordable = true) :
    ((recorderMachine calendar).run (unused calendar 1 le_rfl)
      [.observe e, .start, .turn true]).map records = some [eventRecord e] := by
  have hobserve : (unused calendar 1 le_rfl).recorder.observe e =
      (unused calendar 1 le_rfl).recorder.enqueue e := by
    rw [AsyncEventRecorder.observe, if_neg (ne_false_of_eq_true h)]
    rfl
  rw [Machine.run_cons]
  show ((recorderMachine calendar).run { unused calendar 1 le_rfl with
    recorder := (unused calendar 1 le_rfl).recorder.observe e, observed := _, drops := _ }
    [.start, .turn true]).map records = _
  rw [hobserve]
  rfl

/-- Records of events that may be recorded are alike only if they are equal. -/
theorem eventRecord_eq_of_recordsAlike (h : DifferInAudio e e') (hrecordable : e.recordable = true)
    (halike : RecordsAlike e e') : eventRecord e = eventRecord e' := by
  have hrecordable' : e'.recordable = true := by
    rw [h.others]
    exact hrecordable
  have hrest : List.Forall₂ (Exchanged e e') [.start, .turn true] [.start, .turn true] :=
    List.forall₂_same.mpr fun l _ => .inl rfl
  have hrecords := halike 1 le_rfl _ _ (.cons (.inr ⟨rfl, rfl⟩) hrest)
  rw [records_of_one hrecordable, records_of_one hrecordable'] at hrecords
  exact (List.cons.inj (Option.some.inj hrecords)).1

/-- **When audio stays out of the journal**: when its event is ephemeral media, or is never
recorded. -/
theorem records_alike_iff (h : DifferInAudio e e') : RecordsAlike e e' ↔
    e.recordable = false ∨ e.body.retention = .ephemeralMedia ∨ e = e' := by
  constructor
  · intro halike
    by_cases hrecordable : e.recordable = true
    · exact .inr ((eventRecord_eq_iff h).mp (eventRecord_eq_of_recordsAlike h hrecordable halike))
    · exact .inl (Bool.not_eq_true _ ▸ hrecordable)
  · rintro (hnever | hstays)
    · exact recordsAlike_of_eventRecord_eq h fun hrecordable =>
        absurd (hnever.symm.trans hrecordable) Bool.false_ne_true
    · exact recordsAlike_of_eventRecord_eq h fun _ => (eventRecord_eq_iff h).mpr hstays

end

/-- An event with audio in its payload. -/
def spokenEvent (retention : RetentionClass) (audio : Text) : Event noonCalendar :=
  { noonRemark with body := { noonRemark.body with
    type := "speech.audio_chunk".toList
    payload := {
      value := .mapping .mappingProxy [(.str "audio_base64".toList, .str audio)]
      frozen := ⟨rfl, trivial, trivial⟩
      isMapping := rfl }
    retention := retention
    type_valid := by decide +kernel } }

theorem differInAudio_spokenEvent (retention : RetentionClass) :
    DifferInAudio (spokenEvent retention "QUJD".toList) (spokenEvent retention "REVG".toList) where
  others := rfl
  payload := ⟨.mappingProxy, [], [], "QUJD".toList, "REVG".toList, rfl, rfl, rfl⟩

theorem records_alike_iff_media : RecordsAlike (spokenEvent .ephemeralMedia "QUJD".toList)
    (spokenEvent .ephemeralMedia "REVG".toList) :=
  (records_alike_iff (differInAudio_spokenEvent .ephemeralMedia)).mpr (.inr (.inl rfl))

/-- **Audio of another class of retention is journaled.** -/
theorem trace_journals_audio :
    DifferInAudio (spokenEvent .operationalTrace "QUJD".toList)
      (spokenEvent .operationalTrace "REVG".toList) ∧
    ¬RecordsAlike (spokenEvent .operationalTrace "QUJD".toList)
      (spokenEvent .operationalTrace "REVG".toList) := by
  have h := differInAudio_spokenEvent .operationalTrace
  refine ⟨h, fun halike => ?_⟩
  have heq := eq_of_eventRecord_eq h nofun
    (eventRecord_eq_of_recordsAlike h (by decide +kernel) halike)
  have hvalue := congrArg (fun event : Event noonCalendar => event.body.payload.value) heq
  have hitems := (PyObject.mapping.inj hvalue).2
  have haudio := PyObject.str.inj (Prod.mk.inj (List.cons.inj hitems).1).2
  exact absurd haudio (by decide)

end RecorderRun

end Eeveetuber
