import EerieLeap.Http.Reassembly

/-!
# Requests during start-up

`main` starts the HTTP server long before it constructs the controller, so the server's thread may
call the handlers while `main` is still setting the static members. `Step` interleaves the accesses
of both threads, one at a time.

* `MainMay` : what the constructor may do to the static members, the interference the handlers run
  under;
* `Ready` : the callbacks that may begin, given what has been set;
* `wp_deliver` : a callback that is ready never dereferences a null pointer, whatever `main` does in
  between;
* `no_null_dereference` : nor does any run in which every callback is ready;
* `crashes_of_not_ready` : in a state that a run comes to, a callback that is not ready can be delivered and
  go on to a null dereference.
-/

namespace EerieLeap.Http

open EerieLeap.Lib EerieLeap.Lib.Effect EerieLeap.Lib.Proc

variable {J κ δ : Type}

/-! ## The two threads -/

/-- `main`: before `HttpServer::Start`, and after it with what is left of `HttpServer::Initialize`. -/
inductive Main (J κ δ : Type)
  | beforeStart
  | started (rest : Handler J κ δ Unit)

/-- The static members, `main`, and the callback the server's thread is in. -/
structure System (J κ δ : Type) where
  statics : Statics J κ δ
  main : Main J κ δ
  server : Option (Handler J κ δ (ℤ × ResponseCtx))

/-- What the server calls the handler with. -/
structure Request (w : ℕ) where
  method : HttpMethod
  status : TransactionStatus
  ctx : RequestCtx w

variable (json : JsonSerializer J) (p : Pointers J κ δ) {w : ℕ}

def Request.handler (r : Request w) : Handler J κ δ (ℤ × ResponseCtx) :=
  sensorsConfigHandler json r.method r.status r.ctx .cleared

/-- The steps: `main` starts the server or makes an access of the constructor, the server delivers a
callback, makes an access of it, or takes its answer. -/
inductive Label (w : ℕ)
  | start
  | construct
  | deliver (r : Request w)
  | serve
  | answer

/-- The steps of the system. A callback is delivered with its first access, since nothing in it comes
before. -/
inductive Step : System J κ δ → Label w → System J κ δ → Prop
  | start (s : Statics J κ δ) (server : Option (Handler J κ δ (ℤ × ResponseCtx))) :
      Step ⟨s, .beforeStart, server⟩ .start
        ⟨s, .started (construct p.parser p.manager p.service), server⟩
  | construct {s s' : Statics J κ δ} {rest rest' : Handler J κ δ Unit}
      (server : Option (Handler J κ δ (ℤ × ResponseCtx))) (h : Proc.Step (rest, s) (rest', s')) :
      Step ⟨s, .started rest, server⟩ .construct ⟨s', .started rest', server⟩
  | deliver (s : Statics J κ δ) (rest : Handler J κ δ Unit) (r : Request w) :
      Step ⟨s, .started rest, none⟩ (.deliver r)
        ⟨(first (r.handler json) s).2, .started rest, some (first (r.handler json) s).1⟩
  | serve {s s' : Statics J κ δ} {x x' : Handler J κ δ (ℤ × ResponseCtx)} (main : Main J κ δ)
      (h : Proc.Step (x, s) (x', s')) : Step ⟨s, main, some x⟩ .serve ⟨s', main, some x'⟩
  | answer (s : Statics J κ δ) (main : Main J κ δ) (a : ℤ × ResponseCtx) :
      Step ⟨s, main, some (.done a)⟩ .answer ⟨s, main, none⟩

/-- Before `main` has done anything. -/
def System.initial (device : δ) : System J κ δ := ⟨Statics.initial device, .beforeStart, none⟩

/-- The callback has dereferenced a null pointer. -/
def System.Crashed (S : System J κ δ) : Prop := S.server = some (.fail .nullDereference)

/-! ## What the constructor may do -/

/-- What is set stays set, and the device stays as it is. -/
structure Keeps (s s' : Statics J κ δ) : Prop where
  parser_eq : s.sensorsJsonParser = some p.parser → s'.sensorsJsonParser = some p.parser
  manager_eq : s.sensorsConfigurationManager = some p.manager →
    s'.sensorsConfigurationManager = some p.manager
  service_eq : s.sensorsProcessingService = some p.service →
    s'.sensorsProcessingService = some p.service
  device_eq : s'.device = s.device

/-- The interference of `main`: it sets what is not set, and sizes the buffer while it is empty. -/
structure MainMay (s s' : Statics J κ δ) : Prop extends Keeps p s s' where
  cursor_eq : s'.cursor = s.cursor
  buffer_eq : s.sensorsConfigPostBuffer ≠ [] → s'.sensorsConfigPostBuffer = s.sensorsConfigPostBuffer

variable {p}

theorem Keeps.trans {s₁ s₂ s₃ : Statics J κ δ} (h : Keeps p s₁ s₂) (h' : Keeps p s₂ s₃) :
    Keeps p s₁ s₃ :=
  ⟨h'.parser_eq ∘ h.parser_eq, h'.manager_eq ∘ h.manager_eq, h'.service_eq ∘ h.service_eq,
    h'.device_eq.trans h.device_eq⟩

theorem MainMay.refl (s : Statics J κ δ) : MainMay p s s :=
  ⟨⟨id, id, id, rfl⟩, rfl, fun _ => rfl⟩

theorem MainMay.trans (s₁ s₂ s₃ : Statics J κ δ) (h : MainMay p s₁ s₂) (h' : MainMay p s₂ s₃) :
    MainMay p s₁ s₃ := by
  refine ⟨h.toKeeps.trans h'.toKeeps, h'.cursor_eq.trans h.cursor_eq, fun hne => ?_⟩
  have heq := h.buffer_eq hne
  rw [h'.buffer_eq (by rwa [heq]), heq]

/-- The constructor does no more than that. -/
theorem changes_construct : (construct p.parser p.manager p.service).Changes (MainMay p) := by
  unfold construct
  refine changes_bind (changes_atomic fun s => ?_) fun _ =>
    changes_bind (changes_atomic fun s => ?_) fun _ =>
    changes_bind (changes_atomic fun s => ?_) fun _ => changes_atomic fun s => ?_
  · simp only []
    split
    · exact ⟨⟨id, id, id, rfl⟩, rfl, fun hne => absurd ‹_› hne⟩
    · exact .refl s
  · simp only []
    split
    · exact ⟨⟨fun _ => rfl, id, id, rfl⟩, rfl, fun _ => rfl⟩
    · exact .refl s
  · simp only []
    split
    · exact ⟨⟨id, fun _ => rfl, id, rfl⟩, rfl, fun _ => rfl⟩
    · exact .refl s
  · simp only []
    split
    · exact ⟨⟨id, id, fun _ => rfl, rfl⟩, rfl, fun _ => rfl⟩
    · exact .refl s

/-! ## Callbacks that may begin -/

variable (p)

/-- The pointers that an update with the given body comes to are set. -/
def UpdateReady (body : List UInt8) (s : Statics J κ δ) : Prop :=
  ∀ config, json.deserialize body = .ok config →
    s.sensorsJsonParser = some p.parser ∧
      ∀ sensors, p.parser.deserialize config 16 16 = .ok sensors →
        s.sensorsConfigurationManager = some p.manager ∧
          ((exec (p.manager.update sensors) s.device).1 = .ok true →
            s.sensorsProcessingService = some p.service)

/-- The body that is complete with a final chunk. -/
def bodyWith (s : Statics J κ δ) (ctx : RequestCtx w) : List UInt8 :=
  (overwrite s.sensorsConfigPostBuffer s.cursor ctx.data).take ((s.cursor + ctx.data.length) % 2 ^ w)

/-- A callback may begin: a final GET when the manager and the parser are set, a final POST when it
does not fit the buffer or the pointers its update comes to are set, and any other callback. -/
def Ready (r : Request w) (s : Statics J κ δ) : Prop :=
  r.status = .requestDataFinal →
    (r.method = .get →
        s.sensorsConfigurationManager = some p.manager ∧ s.sensorsJsonParser = some p.parser) ∧
      (r.method = .post →
        (r.ctx.data.length + s.cursor) % 2 ^ w ≤ s.sensorsConfigPostBuffer.length →
        UpdateReady json p (bodyWith s r.ctx) s)

variable {json p}

theorem UpdateReady.keeps {body : List UInt8} {s s' : Statics J κ δ} (h : UpdateReady json p body s)
    (hs : Keeps p s s') : UpdateReady json p body s' := by
  intro config hconfig
  obtain ⟨hparser, hrest⟩ := h config hconfig
  refine ⟨hs.parser_eq hparser, fun sensors hsensors => ?_⟩
  obtain ⟨hmanager, hservice⟩ := hrest sensors hsensors
  exact ⟨hs.manager_eq hmanager, fun hok => hs.service_eq (hservice (by rwa [← hs.device_eq]))⟩

/-! ## Handlers under interference -/

section Handlers

variable {α : Type} {Q : α → Statics J κ δ → Prop} {E : Failure → Statics J κ δ → Prop}
  {s : Statics J κ δ}

/-- A pointer that is set, and stays so, is not null. -/
theorem wp_deref {β : Type} {pointer : Statics J κ δ → Option β} {b : β} {f : β → Handler J κ δ α}
    (hpointer : ∀ s', MainMay p s s' → pointer s' = some b)
    (hf : ∀ s', MainMay p s s' → wp (MainMay p) Q E (f b) s') :
    wp (MainMay p) Q E (deref pointer >>= f) s := by
  rw [wp_bind, deref, wp_atomic]
  intro s' hs'
  rw [hpointer s' hs']
  exact hf s' hs'

theorem wp_call {β : Type} {x : Eff δ String β} {f : β → Handler J κ δ α}
    (hE : ∀ what s', E (.exception what) s')
    (hf : ∀ s' b, MainMay p s s' → (exec x s.device).1 = .ok b →
      wp (MainMay p) Q E (f b) { s' with device := (exec x s'.device).2 }) :
    wp (MainMay p) Q E (call x >>= f) s := by
  rw [wp_bind, call, wp_atomic]
  intro s' hs'
  have hf := fun b => hf s' b hs'
  rw [← hs'.device_eq] at hf
  rcases hx : (exec x s'.device).1 with what | b
  · exact hE what _
  · exact hf b hx

theorem wp_convert {β : Type} {x : Except String β} {f : β → Handler J κ δ α}
    (hE : ∀ what s', E (.exception what) s')
    (hf : ∀ b, x = .ok b → wp (MainMay p) Q E (f b) s) :
    wp (MainMay p) Q E (convert x >>= f) s := by
  rw [wp_bind, convert, wp_ofExcept]
  cases x with
  | error what => exact hE what s
  | ok b => exact hf b rfl

/-- **An update** that is ready may throw, but dereferences no null pointer. -/
theorem wp_updateSensorsConfig {Q : Unit → Statics J κ δ → Prop} {body : List UInt8}
    (h : UpdateReady json p body s) (hQ : ∀ s', Q () s') (hE : ∀ what s', E (.exception what) s') :
    wp (MainMay p) Q E (updateSensorsConfig json body) s := by
  unfold updateSensorsConfig
  rw [wp_bind, wp_write]
  intro s₁ hs₁
  have h₁ : UpdateReady json p body
      { s₁ with calls := s₁.calls ++ [.updateSensorsConfig body] } :=
    (h.keeps hs₁.toKeeps).keeps ⟨id, id, id, rfl⟩
  refine wp_convert hE fun config hconfig => ?_
  obtain ⟨hparser, hrest⟩ := h₁ config hconfig
  refine wp_deref (fun s₂ hs₂ => hs₂.parser_eq hparser) fun s₂ hs₂ => ?_
  refine wp_convert hE fun sensors hsensors => ?_
  have hmanager := hs₂.manager_eq (hrest sensors hsensors).1
  refine wp_deref (fun s₃ hs₃ => hs₃.manager_eq hmanager) fun s₃ hs₃ => ?_
  refine wp_call hE fun s₄ updated hs₄ hupdated => ?_
  cases updated with
  | false => exact hE _ _
  | true =>
    -- the configuration is stored, so the service is set
    have hdevice : s₃.device = s₁.device := hs₃.device_eq.trans hs₂.device_eq
    have hservice := hs₄.service_eq <| hs₃.service_eq <| hs₂.service_eq <|
      (hrest sensors hsensors).2 (by rw [← hupdated, hdevice])
    refine wp_deref (fun s₅ hs₅ => hs₅.service_eq hservice) fun s₅ hs₅ => ?_
    refine wp_call hE fun s₆ _ hs₆ _ => ?_
    refine wp_deref (fun s₇ hs₇ => hs₇.service_eq (hs₆.service_eq (hs₅.service_eq hservice)))
      fun s₇ _ => ?_
    rw [call, wp_atomic]
    intro s₈ _
    rcases (exec p.service.start s₈.device).1 with what | u
    · exact hE what _
    · exact hQ _

end Handlers

/-! ### The body does not change under way -/

theorem overwrite_ne_nil {buffer data : List UInt8} {offset : ℕ} (h : buffer ≠ []) :
    overwrite buffer offset data ≠ [] := by
  intro hnil
  obtain ⟨hfront, hdrop⟩ := List.append_eq_nil_iff.mp hnil
  obtain ⟨htake, rfl⟩ := List.append_eq_nil_iff.mp hfront
  rw [List.length_nil, Nat.add_zero] at hdrop
  rw [← List.take_append_drop offset buffer, htake, hdrop] at h
  exact h rfl

/-- What the handler reads back behind the last chunk is what it has copied, although `main` may size
the buffer in between: it does so only while the buffer is empty, and then nothing is copied. -/
theorem take_eq_bodyWith {s s₁ s₂ s₃ : Statics J κ δ} {ctx : RequestCtx w} {calls : List Call}
    (hfits : (ctx.data.length + s.cursor) % 2 ^ w ≤ s.sensorsConfigPostBuffer.length)
    (hs₁ : MainMay p s s₁)
    (hs₂ : MainMay p { s₁ with
      sensorsConfigPostBuffer := overwrite s₁.sensorsConfigPostBuffer s₁.cursor ctx.data
      calls := calls } s₂)
    (hs₃ : MainMay p { s₂ with cursor := (s₂.cursor + ctx.data.length) % 2 ^ w } s₃) :
    s₃.sensorsConfigPostBuffer.take s₃.cursor = bodyWith s ctx := by
  have hcursor : s₃.cursor = (s.cursor + ctx.data.length) % 2 ^ w := by
    rw [hs₃.cursor_eq, hs₂.cursor_eq, hs₁.cursor_eq]
  rw [Nat.add_comm] at hfits
  rw [bodyWith, hcursor]
  by_cases hne : s.sensorsConfigPostBuffer = []
  · rw [hne, List.length_nil, Nat.le_zero] at hfits
    rw [hfits, List.take_zero, List.take_zero]
  · have hbuffer₁ := hs₁.buffer_eq hne
    have hne₂ : overwrite s₁.sensorsConfigPostBuffer s₁.cursor ctx.data ≠ [] :=
      overwrite_ne_nil (by rwa [hbuffer₁])
    have hbuffer₂ := hs₂.buffer_eq hne₂
    rw [hs₃.buffer_eq (by rwa [hbuffer₂]), hbuffer₂, hbuffer₁, hs₁.cursor_eq]

/-! ### A callback -/

/-- Whatever `main` does in between, the program dereferences no null pointer. -/
def NoNull (p : Pointers J κ δ) (x : Handler J κ δ (ℤ × ResponseCtx)) (s : Statics J κ δ) : Prop :=
  wp (MainMay p) (fun _ _ => True) (fun e _ => e ≠ .nullDereference) x s

theorem first_deref {α β : Type} {pointer : Statics J κ δ → Option β} {b : β} {f : β → Handler J κ δ α}
    {s : Statics J κ δ} (h : pointer s = some b) : first (deref pointer >>= f) s = (f b, s) := by
  unfold deref
  rw [first_atomic_bind, h]
  rfl

theorem noNull_get {s : Statics J κ δ} (hmanager : s.sensorsConfigurationManager = some p.manager)
    (hparser : s.sensorsJsonParser = some p.parser) :
    NoNull p (first (sensorsConfigGetHandler json .requestDataFinal .cleared) s).1
      (first (sensorsConfigGetHandler json .requestDataFinal .cleared) s).2 := by
  unfold sensorsConfigGetHandler
  rw [if_neg (by decide), if_pos rfl, first_deref hmanager, NoNull, wp_bind, wp_read]
  intro s₁ hs₁
  refine wp_deref (fun s₂ hs₂ => hs₂.parser_eq (hs₁.parser_eq hparser)) fun s₂ _ => ?_
  rw [wp_bind, wp_write]
  intro s₃ _
  rw [wp_bind, wp_read]
  exact fun _ _ => trivial

theorem noNull_post {s : Statics J κ δ} {status : TransactionStatus} {ctx : RequestCtx w}
    (h : status = .requestDataFinal →
      (ctx.data.length + s.cursor) % 2 ^ w ≤ s.sensorsConfigPostBuffer.length →
      UpdateReady json p (bodyWith s ctx) s) :
    NoNull p (first (sensorsConfigPostHandler json status ctx .cleared) s).1
      (first (sensorsConfigPostHandler json status ctx .cleared) s).2 := by
  by_cases hstatus : status = .transactionAborted
  · subst hstatus
    trivial
  have hfirst : ∀ (g : Statics J κ δ → Bool) (f : Bool → Handler J κ δ (ℤ × ResponseCtx)),
      first (Proc.read g >>= f) s = (f (g s), s) := fun _ _ => rfl
  unfold sensorsConfigPostHandler
  rw [if_neg hstatus, hfirst]
  by_cases hfits : (ctx.data.length + s.cursor) % 2 ^ w ≤ s.sensorsConfigPostBuffer.length
  swap
  · -- the chunk is rejected
    rw [decide_eq_true (by omega), if_pos rfl, NoNull, wp_bind, setCursor, wp_write]
    exact fun _ _ => trivial
  rw [decide_eq_false (by omega), if_neg (by decide), NoNull, wp_bind, wp_write]
  intro s₁ hs₁
  rw [wp_bind, wp_write]
  intro s₂ hs₂
  by_cases hfinal : status = .requestDataFinal
  swap
  · rw [if_neg hfinal]
    trivial
  rw [if_pos hfinal, wp_bind, wp_read]
  intro s₃ hs₃
  rw [take_eq_bodyWith hfits hs₁ hs₂ hs₃]
  have hkeeps₂ : Keeps p s s₂ :=
    hs₁.toKeeps.trans ⟨hs₂.parser_eq, hs₂.manager_eq, hs₂.service_eq, hs₂.device_eq⟩
  have hkeeps : Keeps p s s₃ :=
    hkeeps₂.trans ⟨hs₃.parser_eq, hs₃.manager_eq, hs₃.service_eq, hs₃.device_eq⟩
  rw [wp_bind, wp_handle, wp_bind]
  refine wp_updateSensorsConfig ((h hfinal hfits).keeps hkeeps) (fun s₄ => ?_) fun what s₄ => ?_
  · rw [wp_pure, wp_bind, setCursor, wp_write]
    exact fun _ _ => trivial
  · -- the exception is answered
    rw [answerException, wp_bind, wp_write]
    intro s₅ _
    rw [wp_pure, wp_bind, setCursor, wp_write]
    exact fun _ _ => trivial

/-- **A callback that is ready** dereferences no null pointer. -/
theorem noNull_deliver {r : Request w} {s : Statics J κ δ} (h : Ready json p r s) :
    NoNull p (first (r.handler json) s).1 (first (r.handler json) s).2 := by
  obtain ⟨method, status, ctx⟩ := r
  unfold Request.handler sensorsConfigHandler
  cases method with
  | get =>
    rw [if_pos rfl]
    cases status with
    | transactionAborted => trivial
    | requestDataMore => trivial
    | requestDataFinal =>
      obtain ⟨hmanager, hparser⟩ := (h rfl).1 rfl
      exact noNull_get hmanager hparser
  | post =>
    rw [if_neg (by simp), if_pos rfl]
    exact noNull_post fun hfinal => (h hfinal).2 rfl
  | other =>
    rw [if_neg (by simp), if_neg (by simp)]
    trivial

/-! ## Runs -/

variable (json p)

/-- Every callback that begins is ready. -/
def Guard : System J κ δ → Label w → Prop
  | S, .deliver r => Ready json p r S.statics
  | _, _ => True

/-- The systems that runs reach whose callbacks are all ready. -/
def Reaches (w : ℕ) : System J κ δ → System J κ δ → Prop :=
  Relation.ReflTransGen fun S S' => ∃ l : Label w, Guard json p S l ∧ Step json p S l S'

variable {json p}

/-- `main` comes to the end of what is left of it, when the server makes no step. -/
theorem reaches_constructed (rest : Handler J κ δ Unit) (s : Statics J κ δ)
    (server : Option (Handler J κ δ (ℤ × ResponseCtx))) : Reaches json p w ⟨s, .started rest, server⟩
      ⟨(runAlone rest s).2, .started (Proc.ofExcept (runAlone rest s).1), server⟩ :=
  (steps_runAlone rest s).lift
    (fun c : Handler J κ δ Unit × Statics J κ δ => (⟨c.2, .started c.1, server⟩ : System J κ δ))
    fun _ _ hstep => ⟨.construct, trivial, .construct server hstep⟩

/-- And so does the server, when `main` makes none. -/
theorem reaches_served (x : Handler J κ δ (ℤ × ResponseCtx)) (s : Statics J κ δ) (main : Main J κ δ) :
    Reaches json p w ⟨s, main, some x⟩
      ⟨(runAlone x s).2, main, some (Proc.ofExcept (runAlone x s).1)⟩ :=
  (steps_runAlone x s).lift
    (fun c : Handler J κ δ (ℤ × ResponseCtx) × Statics J κ δ => (⟨c.2, main, some c.1⟩ : System J κ δ))
    fun _ _ hstep => ⟨.serve, trivial, .serve main hstep⟩

/-- Nothing comes between the delivery of a callback and its first access. -/
theorem runAlone_first {α : Type} (x : Proc (Statics J κ δ) Failure α) (s : Statics J κ δ) :
    runAlone (first x s).1 (first x s).2 = runAlone x s := by
  cases x <;> rfl

/-- A callback that is ready is delivered and answered. -/
theorem reaches_answered {r : Request w} {s s' : Statics J κ δ} {a : ℤ × ResponseCtx}
    (rest : Handler J κ δ Unit) (hready : Ready json p r s) (hrun : runAlone (r.handler json) s = (.ok a, s')) :
    Reaches json p w ⟨s, .started rest, none⟩ ⟨s', .started rest, some (.done a)⟩ := by
  have hserved : Reaches json p w ⟨(first (r.handler json) s).2, .started rest, some (first (r.handler json) s).1⟩ _ :=
    reaches_served _ _ _
  rw [runAlone_first, hrun] at hserved
  exact .head ⟨.deliver r, hready, .deliver s rest r⟩ hserved

/-- The invariant: what is left of `main` does what `MainMay` allows, and under that the callback the
server is in dereferences no null pointer. -/
structure System.Safe (p : Pointers J κ δ) (S : System J κ δ) : Prop where
  main_changes : ∀ rest, S.main = .started rest → rest.Changes (MainMay p)
  server_noNull : ∀ x, S.server = some x → NoNull p x S.statics

theorem System.Safe.step {S S' : System J κ δ} {l : Label w} (hS : S.Safe p) (hl : Guard json p S l)
    (h : Step json p S l S') : S'.Safe p := by
  obtain ⟨hmain, hserver⟩ := hS
  cases h with
  | start s server =>
    refine ⟨fun rest hrest => ?_, hserver⟩
    obtain rfl := Main.started.inj hrest
    exact changes_construct
  | construct server hstep =>
    obtain ⟨hs, hrest'⟩ := (hmain _ rfl).step hstep
    refine ⟨fun rest hrest => ?_, fun x hx => ?_⟩
    · obtain rfl := Main.started.inj hrest
      exact hrest'
    · exact wp_of_rely MainMay.trans (fun _ _ _ _ h => h) (fun _ _ _ _ h => h) (hserver x hx) hs
  | deliver s rest r =>
    refine ⟨hmain, fun x hx => ?_⟩
    obtain rfl := Option.some.inj hx
    exact noNull_deliver hl
  | serve main hstep =>
    refine ⟨hmain, fun x hx => ?_⟩
    obtain rfl := Option.some.inj hx
    exact wp_step MainMay.refl (hserver _ rfl) hstep
  | answer s main a => exact ⟨hmain, by simp⟩

theorem System.Safe.reaches {S S' : System J κ δ} (hS : S.Safe p) (h : Reaches json p w S S') :
    S'.Safe p := by
  induction h with
  | refl => exact hS
  | tail _ hstep ih =>
    obtain ⟨l, hl, hstep⟩ := hstep
    exact ih.step hl hstep

theorem System.safe_initial (device : δ) : (System.initial device).Safe p :=
  ⟨by simp [System.initial], by simp [System.initial]⟩

/-- **No null dereference**: in a run whose callbacks are all ready when they begin, no handler
dereferences a null pointer. -/
theorem no_null_dereference (device : δ) {S : System J κ δ}
    (h : Reaches json p w (System.initial device) S) : ¬ S.Crashed := by
  intro hcrashed
  exact ((System.safe_initial device).reaches h).server_noNull _ hcrashed rfl

/-! ## Callbacks that are not ready -/

/-- Every pointer is null or what the constructor sets it to. -/
structure WellSet (p : Pointers J κ δ) (s : Statics J κ δ) : Prop where
  parser_eq : s.sensorsJsonParser = none ∨ s.sensorsJsonParser = some p.parser
  manager_eq : s.sensorsConfigurationManager = none ∨ s.sensorsConfigurationManager = some p.manager
  service_eq : s.sensorsProcessingService = none ∨ s.sensorsProcessingService = some p.service

/-- An access leaves the pointers as they may be. -/
def KeepsWellSet (p : Pointers J κ δ) (s s' : Statics J κ δ) : Prop := WellSet p s → WellSet p s'

section KeepsWellSet

variable {α : Type}

theorem keepsWellSet_deref (pointer : Statics J κ δ → Option α) :
    (deref pointer).Changes (KeepsWellSet p) := changes_atomic fun _ => id

theorem keepsWellSet_call (x : Eff δ String α) :
    (call x : Handler J κ δ α).Changes (KeepsWellSet p) :=
  changes_atomic fun _ h => ⟨h.parser_eq, h.manager_eq, h.service_eq⟩

theorem keepsWellSet_construct :
    (construct p.parser p.manager p.service).Changes (KeepsWellSet p) := by
  unfold construct
  refine changes_bind (changes_write fun s h => ?_) fun _ =>
    changes_bind (changes_write fun s h => ?_) fun _ =>
    changes_bind (changes_write fun s h => ?_) fun _ => changes_write fun s h => ?_
  · split
    · exact ⟨h.parser_eq, h.manager_eq, h.service_eq⟩
    · exact h
  · split
    · exact ⟨Or.inr rfl, h.manager_eq, h.service_eq⟩
    · exact h
  · split
    · exact ⟨h.parser_eq, Or.inr rfl, h.service_eq⟩
    · exact h
  · split
    · exact ⟨h.parser_eq, h.manager_eq, Or.inr rfl⟩
    · exact h

theorem keepsWellSet_updateSensorsConfig (body : List UInt8) :
    (updateSensorsConfig json body : Handler J κ δ Unit).Changes (KeepsWellSet p) := by
  have hrest : Proc.Changes (KeepsWellSet p) (do
      let service ← deref (·.sensorsProcessingService)
      call service.stop
      let service ← deref (·.sensorsProcessingService)
      call service.start : Handler J κ δ Unit) :=
    changes_bind (keepsWellSet_deref _) fun _ => changes_bind (keepsWellSet_call _) fun _ =>
      changes_bind (keepsWellSet_deref _) fun _ => keepsWellSet_call _
  unfold updateSensorsConfig
  refine changes_bind (changes_write fun s h => ⟨h.parser_eq, h.manager_eq, h.service_eq⟩) fun _ =>
    changes_bind (changes_ofExcept _) fun _ => changes_bind (keepsWellSet_deref _) fun _ =>
    changes_bind (changes_ofExcept _) fun _ => changes_bind (keepsWellSet_deref _) fun _ =>
    changes_bind (keepsWellSet_call _) fun updated => ?_
  split
  · exact changes_bind trivial fun _ => hrest
  · exact hrest

theorem keepsWellSet_setCursor (cursor : ℕ) :
    (setCursor cursor : Handler J κ δ Unit).Changes (KeepsWellSet p) :=
  changes_write fun _ h => ⟨h.parser_eq, h.manager_eq, h.service_eq⟩

theorem keepsWellSet_post (status : TransactionStatus) (ctx : RequestCtx w) (response : ResponseCtx) :
    (sensorsConfigPostHandler json status ctx response : Handler J κ δ _).Changes (KeepsWellSet p) := by
  have hwrite : ∀ s s' : Statics J κ δ, s'.sensorsJsonParser = s.sensorsJsonParser →
      s'.sensorsConfigurationManager = s.sensorsConfigurationManager →
      s'.sensorsProcessingService = s.sensorsProcessingService → KeepsWellSet p s s' := by
    intro s s' hparser hmanager hservice h
    exact ⟨hparser ▸ h.parser_eq, hmanager ▸ h.manager_eq, hservice ▸ h.service_eq⟩
  unfold sensorsConfigPostHandler
  split
  · exact changes_bind (keepsWellSet_setCursor _) fun _ => trivial
  refine changes_bind (changes_read fun _ => id) fun tooLong => ?_
  split
  · exact changes_bind (keepsWellSet_setCursor _) fun _ => trivial
  refine changes_bind (changes_write fun s => hwrite _ _ rfl rfl rfl) fun _ =>
    changes_bind (changes_write fun s => hwrite _ _ rfl rfl rfl) fun _ => ?_
  split
  · refine changes_bind (changes_read fun _ => id) fun body => changes_bind (changes_handle ?_ ?_)
      fun _ => changes_bind (keepsWellSet_setCursor _) fun _ => trivial
    · exact changes_bind (keepsWellSet_updateSensorsConfig _) fun _ => trivial
    · rintro (what | _)
      · exact changes_bind (changes_write fun s => hwrite _ _ rfl rfl rfl) fun _ => trivial
      · trivial
  · trivial

theorem keepsWellSet_handler (r : Request w) :
    (r.handler json : Handler J κ δ _).Changes (KeepsWellSet p) := by
  unfold Request.handler sensorsConfigHandler
  split
  · unfold sensorsConfigGetHandler
    split
    · trivial
    split
    · exact changes_bind (keepsWellSet_deref _) fun _ => changes_bind (changes_read fun _ => id) fun _ =>
        changes_bind (keepsWellSet_deref _) fun _ =>
        changes_bind (changes_write fun _ h => ⟨h.parser_eq, h.manager_eq, h.service_eq⟩) fun _ =>
        changes_bind (changes_read fun _ => id) fun _ => trivial
    · trivial
  · split
    · exact keepsWellSet_post _ _ _
    · trivial

end KeepsWellSet

/-- The systems that any run reaches. -/
def Runs (json : JsonSerializer J) (p : Pointers J κ δ) (w : ℕ) : System J κ δ → System J κ δ → Prop :=
  Relation.ReflTransGen fun S S' => ∃ l : Label w, Step json p S l S'

theorem Reaches.runs {S S' : System J κ δ} (h : Reaches json p w S S') : Runs json p w S S' :=
  Relation.ReflTransGen.mono (fun _ _ ⟨l, _, hstep⟩ => ⟨l, hstep⟩) _ _ h

/-- The invariant of all runs: the pointers are null or what the constructor sets them to, and both
threads leave them so. -/
structure System.WellSet (p : Pointers J κ δ) (S : System J κ δ) : Prop where
  statics_wellSet : Http.WellSet p S.statics
  main_keeps : ∀ rest, S.main = .started rest → rest.Changes (KeepsWellSet p)
  server_keeps : ∀ x, S.server = some x → x.Changes (KeepsWellSet p)

theorem System.WellSet.step {S S' : System J κ δ} {l : Label w} (hS : S.WellSet p)
    (h : Step json p S l S') : S'.WellSet p := by
  obtain ⟨hstatics, hmain, hserver⟩ := hS
  cases h with
  | start s server =>
    refine ⟨hstatics, fun rest hrest => ?_, hserver⟩
    obtain rfl := Main.started.inj hrest
    exact keepsWellSet_construct
  | construct server hstep =>
    obtain ⟨hs, hrest'⟩ := (hmain _ rfl).step hstep
    refine ⟨hs hstatics, fun rest hrest => ?_, hserver⟩
    obtain rfl := Main.started.inj hrest
    exact hrest'
  | deliver s rest r =>
    have hkeeps : (r.handler json : Handler J κ δ _).Changes (KeepsWellSet p) := keepsWellSet_handler r
    obtain ⟨hs, hx'⟩ := hkeeps.first (fun _ => id) s
    refine ⟨hs hstatics, hmain, fun x hx => ?_⟩
    obtain rfl := Option.some.inj hx
    exact hx'
  | serve main hstep =>
    obtain ⟨hs, hx'⟩ := (hserver _ rfl).step hstep
    refine ⟨hs hstatics, hmain, fun x hx => ?_⟩
    obtain rfl := Option.some.inj hx
    exact hx'
  | answer s main a => exact ⟨hstatics, hmain, by simp⟩

theorem System.wellSet_of_runs {device : δ} {S : System J κ δ}
    (h : Runs json p w (System.initial device) S) : S.WellSet p := by
  induction h with
  | refl => exact ⟨⟨Or.inl rfl, Or.inl rfl, Or.inl rfl⟩, by simp [System.initial], by simp [System.initial]⟩
  | tail _ hstep ih =>
    obtain ⟨l, hstep⟩ := hstep
    exact ih.step hstep

section Crashes

variable {α β : Type} {s : Statics J κ δ} {pointer : Statics J κ δ → Option β}

theorem null_of_deref_none {f : β → Handler J κ δ α} (h : pointer s = none) :
    (runAlone (deref pointer >>= f) s).1 = .error .nullDereference := by
  rw [runAlone_bind, deref, runAlone_atomic, h]

theorem null_of_deref_some {b : β} {f : β → Handler J κ δ α} (h : pointer s = some b)
    (hf : (runAlone (f b) s).1 = .error .nullDereference) :
    (runAlone (deref pointer >>= f) s).1 = .error .nullDereference := by
  rw [runAlone_bind, deref, runAlone_atomic, h]
  exact hf

theorem null_of_bind {x : Handler J κ δ β} {f : β → Handler J κ δ α}
    (h : (runAlone x s).1 = .error .nullDereference) :
    (runAlone (x >>= f) s).1 = .error .nullDereference := by
  rw [runAlone_bind]
  rcases hx : runAlone x s with ⟨r, s'⟩
  rw [hx] at h
  obtain rfl : r = _ := h
  rfl

/-- The `catch` of the POST handler does not catch it. -/
theorem null_of_handle {x : Handler J κ δ ResponseCtx} {response : ResponseCtx}
    (h : (runAlone x s).1 = .error .nullDereference) :
    (runAlone (x.handle (answerException response)) s).1 = .error .nullDereference := by
  rw [runAlone_handle]
  rcases hx : runAlone x s with ⟨r, s'⟩
  rw [hx] at h
  obtain rfl : r = _ := h
  rfl

theorem null_of_convert {x : Except String β} {b : β} {f : β → Handler J κ δ α} (h : x = .ok b)
    (hf : (runAlone (f b) s).1 = .error .nullDereference) :
    (runAlone (convert x >>= f) s).1 = .error .nullDereference := by
  rw [runAlone_bind, convert, runAlone_ofExcept, h]
  exact hf

/-- An update that is not ready comes to a null pointer when nothing interrupts it. -/
theorem null_of_update_not_ready {body : List UInt8} (hs : WellSet p s)
    (h : ¬ UpdateReady json p body s) :
    (runAlone (updateSensorsConfig json body) s).1 = .error .nullDereference := by
  unfold UpdateReady at h
  push Not at h
  obtain ⟨config, hconfig, h⟩ := h
  unfold updateSensorsConfig
  rw [runAlone_write_bind]
  refine null_of_convert hconfig ?_
  rcases hs.parser_eq with hparser | hparser
  · exact null_of_deref_none hparser
  obtain ⟨sensors, hsensors, h⟩ := h hparser
  refine null_of_deref_some hparser (null_of_convert hsensors ?_)
  rcases hs.manager_eq with hmanager | hmanager
  · exact null_of_deref_none hmanager
  obtain ⟨hupdate, hservice⟩ := h hmanager
  have hservice := hs.service_eq.resolve_right hservice
  refine null_of_deref_some hmanager ?_
  rw [runAlone_bind, call, runAlone_atomic]
  simp only [hupdate, Except.mapError, Bool.true_eq_false, if_false]
  exact null_of_deref_none hservice

/-- A callback that comes to a null pointer when nothing interrupts it can crash the system. -/
theorem runs_crashed {S : System J κ δ} {x : Handler J κ δ (ℤ × ResponseCtx)} (hx : S.server = some x)
    (hnull : (runAlone x S.statics).1 = .error .nullDereference) :
    ∃ S', Runs json p w S S' ∧ S'.Crashed := by
  obtain ⟨s, main, server⟩ := S
  obtain rfl : server = some x := hx
  have hserved : Reaches json p w ⟨s, main, some x⟩ _ := reaches_served x s main
  rw [hnull] at hserved
  exact ⟨_, hserved.runs, rfl⟩

/-- A callback that is not ready comes to a null pointer when nothing interrupts it. -/
theorem null_of_not_ready {r : Request w} (hs : WellSet p s) (h : ¬ Ready json p r s) :
    (runAlone (r.handler json) s).1 = .error .nullDereference := by
  obtain ⟨method, status, ctx⟩ := r
  unfold Ready at h
  rw [Classical.not_imp, not_and_or, Classical.not_imp, Classical.not_imp, Classical.not_imp] at h
  obtain ⟨hfinal, ⟨hget, h⟩ | ⟨hpost, hfits, h⟩⟩ := h
  · obtain rfl : status = .requestDataFinal := hfinal
    obtain rfl : method = .get := hget
    unfold Request.handler sensorsConfigHandler sensorsConfigGetHandler
    rw [if_pos rfl, if_neg (by simp), if_pos rfl]
    rcases hs.manager_eq with hmanager | hmanager
    · exact null_of_deref_none hmanager
    have hparser := hs.parser_eq.resolve_right fun hparser => h ⟨hmanager, hparser⟩
    refine null_of_deref_some hmanager ?_
    rw [runAlone_read_bind]
    exact null_of_deref_none hparser
  · obtain rfl : status = .requestDataFinal := hfinal
    obtain rfl : method = .post := hpost
    have hupdate : ∀ calls, (runAlone (updateSensorsConfig json (bodyWith s ctx)) { s with
        sensorsConfigPostBuffer := overwrite s.sensorsConfigPostBuffer s.cursor ctx.data
        cursor := (s.cursor + ctx.data.length) % 2 ^ w
        calls := calls }).1 = .error .nullDereference := fun calls =>
      null_of_update_not_ready ⟨hs.parser_eq, hs.manager_eq, hs.service_eq⟩ fun h' =>
        h (h'.keeps ⟨id, id, id, rfl⟩)
    unfold Request.handler sensorsConfigHandler sensorsConfigPostHandler
    rw [if_neg (by simp), if_pos rfl, if_neg (by simp), runAlone_read_bind,
      decide_eq_false (by simpa using hfits), if_neg (by decide), runAlone_write_bind,
      runAlone_write_bind, if_pos rfl, runAlone_read_bind]
    exact null_of_bind (null_of_handle (null_of_bind (hupdate _)))

end Crashes

/-- **A callback that is not ready** can crash the system: where a run comes to a state in which the server
is idle, the callback can be delivered, and from there the handler can get to a null dereference. -/
theorem crashes_of_not_ready {device : δ} {s : Statics J κ δ} {rest : Handler J κ δ Unit} {r : Request w}
    (hrun : Runs json p w (System.initial device) ⟨s, .started rest, none⟩) (h : ¬ Ready json p r s) :
    ∃ S S', Step json p ⟨s, .started rest, none⟩ (.deliver r) S ∧ Runs json p w S S' ∧ S'.Crashed := by
  have hnull : (runAlone (first (r.handler json) s).1 (first (r.handler json) s).2).1 =
      .error .nullDereference := by
    rw [runAlone_first]
    exact null_of_not_ready (System.wellSet_of_runs hrun).statics_wellSet h
  obtain ⟨S', hS', hcrashed⟩ : ∃ S', Runs json p w
      ⟨(first (r.handler json) s).2, .started rest, some (first (r.handler json) s).1⟩ S' ∧ S'.Crashed :=
    runs_crashed rfl hnull
  exact ⟨_, S', .deliver s rest r, hS', hcrashed⟩

/-- A POST of one byte, all in one callback. -/
def onePost : Request 32 := ⟨.post, .requestDataFinal, ⟨[0x7B], by decide⟩⟩

/-- A GET. -/
def oneGet : Request 32 := ⟨.get, .requestDataFinal, ⟨[], by decide⟩⟩

/-- The system after `main` has started the server. -/
def startedSystem : System Unit Unit Unit :=
  ⟨Statics.initial (), .started (construct idlePointers.parser idlePointers.manager idlePointers.service),
    none⟩

/-- After the constructor, the POST stores a configuration. -/
theorem runAlone_onePost : ∃ s : Statics Unit Unit Unit,
    runAlone (onePost.handler idleJson) (constructed idlePointers ()) = (.ok (0, .cleared), s) ∧
      s.PointsTo idlePointers ∧
      s.calls = [.memcpy 0 1 sensorsConfigPostBufferSize, .updateSensorsConfig [0x7B]] := by
  have hbuffer : (constructed idlePointers ()).sensorsConfigPostBuffer.length = sensorsConfigPostBufferSize :=
    List.length_replicate ..
  have hrun := runAlone_post_final idleJson onePost.ctx .cleared hbuffer
    (receiving_constructed idlePointers ()).pointsTo (by decide)
  refine ⟨_, hrun, ⟨rfl, rfl, rfl⟩, ?_⟩
  show [Call.memcpy 0 1 _, .updateSensorsConfig [0x7B]] = _
  rw [hbuffer]

/-- The constructor sets the pointers, a POST goes through all of them, and a GET is answered. -/
theorem postThenGet_not_crashed : ∃ S : System Unit Unit Unit,
    Reaches idleJson idlePointers 32 (System.initial ()) S ∧ ¬ S.Crashed ∧
      S.server = some (.done (0, ⟨0, "\x7b\x7d", true⟩)) ∧
      S.statics.calls = [.memcpy 0 1 sensorsConfigPostBufferSize, .updateSensorsConfig [0x7B]] := by
  have hstart : Reaches idleJson idlePointers 32 (System.initial ()) startedSystem :=
    .tail .refl ⟨.start, trivial, .start _ _⟩
  have hset : Reaches idleJson idlePointers 32 startedSystem
      ⟨constructed idlePointers (), .started (.done ()), none⟩ := reaches_constructed _ _ none
  have hpostReady : Ready idleJson idlePointers onePost (constructed idlePointers ()) := fun _ =>
    ⟨fun hget => absurd hget (by decide), fun _ _ _ _ => ⟨rfl, fun _ _ => ⟨rfl, fun _ => rfl⟩⟩⟩
  obtain ⟨s, hrun, hs, hcalls⟩ := runAlone_onePost
  have hposted := ((hstart.trans hset).trans (reaches_answered (.done ()) hpostReady hrun)).tail
    ⟨.answer, trivial, .answer s _ _⟩
  have hgetReady : Ready idleJson idlePointers oneGet s := fun _ =>
    ⟨fun _ => ⟨hs.manager_eq, hs.parser_eq⟩, fun hpost => absurd hpost (by decide)⟩
  have hget : runAlone (oneGet.handler idleJson) s =
      (.ok (0, ⟨0, "\x7b\x7d", true⟩), { s with sensorsConfigGetBuffer := "\x7b\x7d" }) := by
    cases s
    obtain ⟨rfl, rfl, rfl⟩ := hs
    rfl
  have hanswered := hposted.trans (reaches_answered (.done ()) hgetReady hget)
  exact ⟨_, hanswered, no_null_dereference () hanswered, rfl, hcalls⟩

/-- A GET that comes before the constructor dereferences the null manager. -/
theorem oneGet_crashes :
    ¬ ∀ S, Runs idleJson idlePointers 32 (System.initial ()) S → ¬ S.Crashed := fun hall =>
  hall _ (.tail (.tail .refl ⟨.start, .start _ _⟩) ⟨.deliver oneGet, .deliver _ _ oneGet⟩) rfl

end EerieLeap.Http
