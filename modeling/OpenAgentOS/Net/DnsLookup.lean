import OpenAgentOS.Lib.Runs
import OpenAgentOS.Net.Dns

/-!
# Whose answer a lookup returns (kernel/netstack.c)

A reply is taken by its transaction id, which is the same for all queries, and its
question is not compared with anything. A reply that comes late is therefore taken
for the answer to whatever is looked up then, and stored in the cache under that name.

- `DnsEvent`, `DnsState.step`: lookups of both kinds, and polls by others in between.
- `OwnAnswer`: the address of a lookup over UDP is the one in the last reply it has
  polled, that reply has the question of the lookup, and the cache has the address
  under the name.
- `own_answer`: this holds along every run in which only replies with the question of
  the lookup arrive. `not_own_answer_late` is a run in which every reply repeats a
  question that has been asked.
-/

namespace OpenAgentOS

/-- What happens to the globals. -/
inductive DnsEvent where
  | resolve (c : Lookup)
  | resolveSlirp (host : List UInt8) (ready : Bool) (x : Exchange)
  | poll (frame : List UInt8)

/-- One event. -/
def DnsState.step (s : DnsState) : DnsEvent → DnsState
  | .resolve c => (netDnsResolve s c).2
  | .resolveSlirp host ready x => (netDnsResolveSlirp s host ready x).2
  | .poll frame => s.poll frame

/-- The globals at boot. -/
def dnsBoot : DnsState := ⟨0, false, false, false, none⟩

/-- The replies among the frames of an exchange. -/
def Exchange.replies (x : Exchange) : List DnsReply := (x.arp ++ x.frames).filterMap frameReply

/-- The last reply of the frames has the question for `host` and the address `ip`. -/
def LastReply (host : List UInt8) (ip : UInt32) (polled : List (List UInt8)) : Prop :=
  (polled.filterMap frameReply).getLast? = some ⟨dnsQuestion host, ip⟩

/-- The exchange has given the address `ip` for `host`. -/
def Exchange.Answers (x : Exchange) (host : List UInt8) (ip : UInt32) : Prop :=
  ∃ polled, x.arp <+: polled ∧ polled <+: x.arp ++ x.frames ∧ LastReply host ip polled

theorem Exchange.Answers.mem_replies {x : Exchange} {host : List UInt8} {ip : UInt32}
    (h : x.Answers host ip) : ∃ r ∈ x.replies, r.question = dnsQuestion host := by
  obtain ⟨polled, -, hpre, hlast⟩ := h
  exact ⟨_, (hpre.sublist.filterMap frameReply).subset (List.mem_of_getLast? hlast), rfl⟩

/-- The address of a lookup is from a reply to its own question. -/
def OwnAnswer (s : DnsState) : DnsEvent → Prop
  | .resolve c => ∀ ip, (netDnsResolve s c).1 = .udp ip →
      (∃ x ∈ c.servers, x.Answers c.host ip) ∧
        (netDnsResolve s c).2.cache = some (c.host.take 63, ip)
  | .resolveSlirp host ready x => ∀ ip, (netDnsResolveSlirp s host ready x).1 = .udp ip →
      x.Answers host ip
  | .poll _ => True

/-- Only replies to the question for `host` arrive. -/
def Exchange.Only (x : Exchange) (host : List UInt8) : Prop :=
  ∀ r ∈ x.replies, r.question = dnsQuestion host

instance (x : Exchange) (host : List UInt8) : Decidable (x.Only host) :=
  inferInstanceAs (Decidable (∀ r ∈ x.replies, _))

/-- The replies that arrive in a lookup are replies to its question. -/
def OwnReplies : DnsEvent → Prop
  | .resolve c => ∀ x ∈ c.servers, x.Only c.host
  | .resolveSlirp host _ x => x.Only host
  | .poll _ => True

instance : ∀ e, Decidable (OwnReplies e)
  | .resolve c => inferInstanceAs (Decidable (∀ x ∈ c.servers, x.Only c.host))
  | .resolveSlirp host _ x => inferInstanceAs (Decidable (x.Only host))
  | .poll _ => inferInstanceAs (Decidable True)

/-! ## The result and the frames polled -/

/-- A result comes from the last reply polled. -/
def ResultFrom (s : DnsState) (polled : List (List UInt8)) : Prop :=
  s.resultOk = true → ((polled.filterMap frameReply).getLast?).map (·.ip) = some s.resultIp

theorem DnsState.take_resultIp (s : DnsState) (r : DnsReply) : (s.take r).resultIp = r.ip := by
  rw [DnsState.take]
  split <;> rfl

variable {s : DnsState} {x : Exchange} {host : List UInt8} {ip : UInt32}
  {polled : List (List UInt8)}

/-- One poll. -/
theorem ResultFrom.poll (h : ResultFrom s polled) (frame : List UInt8) :
    ResultFrom (s.poll frame) (polled ++ [frame]) := by
  intro hok
  rw [List.filterMap_append]
  cases hreply : frameReply frame with
  | none =>
    have hsame : s.poll frame = s := by rw [DnsState.poll, hreply]
    rw [hsame] at hok ⊢
    rw [List.filterMap_cons_none hreply, List.filterMap_nil, List.append_nil]
    exact h hok
  | some r =>
    have htake : s.poll frame = s.take r := by rw [DnsState.poll, hreply]
    rw [List.filterMap_cons_some hreply, List.filterMap_nil, List.getLast?_concat, htake,
      DnsState.take_resultIp]
    rfl

theorem ResultFrom.foldl (h : ResultFrom s polled) (frames : List (List UInt8)) :
    ResultFrom (frames.foldl DnsState.poll s) (polled ++ frames) := by
  induction frames generalizing s polled with
  | nil =>
    rw [List.append_nil]
    exact h
  | cons frame frames ih =>
    have hnext := ih (h.poll frame)
    rw [List.append_assoc] at hnext
    exact hnext

/-- The globals are cleared before each exchange. -/
theorem resultFrom_ask (s : DnsState) (x : Exchange) : ResultFrom (s.ask x) x.arp := by
  have hclear : ResultFrom { s with resultIp := 0, resultOk := false, sawBogus := false } [] := nofun
  exact hclear.foldl x.arp

/-- The loop over the frames of an exchange returns the last address polled. -/
theorem ResultFrom.wait (h : ResultFrom s polled) {leave : DnsState → Bool}
    {frames : List (List UInt8)} (hret : (waitReply leave s frames).1 = some ip) :
    ∃ taken, taken <+: frames ∧
      (((polled ++ taken).filterMap frameReply).getLast?).map (·.ip) = some ip := by
  induction frames generalizing s polled with
  | nil => exact absurd hret nofun
  | cons frame frames ih =>
    have hnext := h.poll frame
    rw [waitReply] at hret
    by_cases hok : (s.poll frame).resultOk = true
    · rw [if_pos hok] at hret
      refine ⟨[frame], ⟨frames, rfl⟩, ?_⟩
      rw [hnext hok]
      exact hret
    rw [if_neg hok] at hret
    by_cases hleave : leave (s.poll frame) = true
    · rw [if_pos hleave] at hret
      exact absurd hret nofun
    rw [if_neg hleave] at hret
    obtain ⟨taken, hpre, hlast⟩ := ih hnext hret
    refine ⟨frame :: taken, List.cons_prefix_cons.mpr ⟨rfl, hpre⟩, ?_⟩
    rw [List.append_assoc] at hlast
    exact hlast

/-! ## Lookups -/

/-- An exchange in which only replies to the question arrive gives one of them. -/
theorem Exchange.Only.answers (honly : x.Only host) {leave : DnsState → Bool}
    (hret : (waitReply leave (s.ask x) x.frames).1 = some ip) : x.Answers host ip := by
  obtain ⟨taken, hpre, hlast⟩ := (resultFrom_ask s x).wait hret
  obtain ⟨r, hr, hip⟩ := Option.map_eq_some_iff.mp hlast
  have hpolled : x.arp ++ taken <+: x.arp ++ x.frames := (List.prefix_append_right_inj _).mpr hpre
  have hmem : r ∈ x.replies :=
    (hpolled.sublist.filterMap frameReply).subset (List.mem_of_getLast? hr)
  refine ⟨x.arp ++ taken, List.prefix_append _ _, hpolled, ?_⟩
  rw [LastReply, hr, ← honly r hmem, ← hip]

/-- So does the loop over the servers. -/
theorem askServers_answers {xs : List Exchange} (honly : ∀ x ∈ xs, x.Only host)
    (hret : (askServers s xs).1 = some ip) : ∃ x ∈ xs, x.Answers host ip := by
  induction xs generalizing s with
  | nil => exact absurd hret nofun
  | cons x xs ih =>
    have htail : ∀ {s}, (askServers s xs).1 = some ip → ∃ y ∈ x :: xs, y.Answers host ip := by
      intro s hret
      obtain ⟨y, hy, hanswers⟩ := ih (fun y hy => honly y (List.mem_cons_of_mem x hy)) hret
      exact ⟨y, List.mem_cons_of_mem x hy, hanswers⟩
    rw [askServers] at hret
    by_cases hsent : x.arpOk = false ∨ x.sendOk = false
    · rw [if_pos hsent] at hret
      exact htail hret
    rw [if_neg hsent] at hret
    rcases hwait : waitReply DnsState.sawBogus (s.ask x) x.frames with ⟨_ | ip', s'⟩
    · rw [hwait] at hret
      dsimp only at hret
      by_cases hbogus : s'.sawBogus = true
      · rw [if_pos hbogus] at hret
        exact absurd hret nofun
      · rw [if_neg hbogus] at hret
        exact htail hret
    · rw [hwait] at hret
      obtain rfl : ip' = ip := Option.some.inj hret
      have hx : x.Only host := honly x List.mem_cons_self
      exact ⟨x, List.mem_cons_self, hx.answers (congrArg Prod.fst hwait)⟩

/-- A lookup over UDP ends in the loop over the servers. -/
theorem netDnsResolve_udp {c : Lookup} (hret : (netDnsResolve s c).1 = .udp ip) :
    (askServers s c.servers).1 = some ip ∧
      (netDnsResolve s c).2.cache = some (c.host.take 63, ip) := by
  rw [netDnsResolve] at hret ⊢
  by_cases hempty : c.host = []
  · rw [if_pos hempty] at hret
    exact absurd hret nofun
  rw [if_neg hempty] at hret ⊢
  cases hliteral : parseIpv4 c.host with
  | some ip' =>
    rw [hliteral] at hret
    exact absurd hret nofun
  | none =>
    cases hcached : s.cached c.host with
    | some ip' =>
      rw [hliteral, hcached] at hret
      exact absurd hret nofun
    | none =>
      rw [hliteral, hcached] at hret
      dsimp only at hret ⊢
      by_cases hready : c.ready = false
      · rw [if_pos hready] at hret
        exact absurd hret nofun
      rw [if_neg hready] at hret ⊢
      rcases hask : askServers s c.servers with ⟨_ | ip', s'⟩
      · rw [hask] at hret
        dsimp only at hret
        cases hdoh : c.doh <;> rw [hdoh] at hret <;> exact absurd hret nofun
      · rw [hask] at hret
        obtain rfl : ip' = ip := DnsReturn.udp.inj hret
        exact ⟨rfl, rfl⟩

/-- The other lookup over UDP ends in its loop. -/
theorem netDnsResolveSlirp_udp {ready : Bool}
    (hret : (netDnsResolveSlirp s host ready x).1 = .udp ip) :
    (waitReply (fun _ => false) (DnsState.ask { s with acceptBogus := true } x) x.frames).1 =
      some ip := by
  rw [netDnsResolveSlirp] at hret
  by_cases hempty : host = []
  · rw [if_pos hempty] at hret
    exact absurd hret nofun
  rw [if_neg hempty] at hret
  cases hliteral : parseIpv4 host with
  | some ip' =>
    rw [hliteral] at hret
    exact absurd hret nofun
  | none =>
    rw [hliteral] at hret
    dsimp only at hret
    by_cases hready : ready = false
    · rw [if_pos hready] at hret
      exact absurd hret nofun
    rw [if_neg hready] at hret
    by_cases hsent : x.arpOk = false ∨ x.sendOk = false
    · rw [if_pos hsent] at hret
      exact absurd hret nofun
    rw [if_neg hsent] at hret
    rcases hwait : waitReply (fun _ => false) (DnsState.ask { s with acceptBogus := true } x)
      x.frames with ⟨_ | ip', s'⟩
    · rw [hwait] at hret
      exact absurd hret nofun
    · rw [hwait] at hret
      exact congrArg some (DnsReturn.udp.inj hret)

/-- One event. -/
theorem OwnReplies.ownAnswer {e : DnsEvent} (h : OwnReplies e) (s : DnsState) : OwnAnswer s e := by
  cases e with
  | resolve c =>
    intro ip hret
    obtain ⟨hask, hcache⟩ := netDnsResolve_udp hret
    exact ⟨askServers_answers h hask, hcache⟩
  | resolveSlirp host ready x =>
    intro ip hret
    have honly : x.Only host := h
    exact honly.answers (netDnsResolveSlirp_udp hret)
  | poll frame => trivial

/-- **Lookups return their own answers as long as no other reply arrives in them.** -/
theorem own_answer (s : DnsState) (es : List DnsEvent)
    (h : Runs.Along DnsState.step (fun _ e => OwnReplies e) s es) :
    Runs.Along DnsState.step OwnAnswer s es :=
  h.imp fun s _ hown => hown.ownAnswer s

/-- A frame with a reply of the server. -/
def replyFrame (host : List UInt8) (ip : UInt32) : List UInt8 :=
  datagramFrame 0x08080808 ⟨53, 49153, dnsReplyTo host ip⟩

/-- A lookup with one frame from the first server and nothing more. -/
def lookupWith (host frame : List UInt8) : Lookup where
  host := host
  ready := true
  servers := [⟨[], true, true, [frame]⟩, ⟨[], true, true, []⟩, ⟨[], true, true, []⟩]
  doh := none
  dohFrames := []

/-- The hosts "a.io" and "b.io". -/
def someHosts : List UInt8 × List UInt8 := ([97, 46, 105, 111], [98, 46, 105, 111])

theorem own_answer_two :
    Runs.Along DnsState.step OwnAnswer dnsBoot
      [.resolve (lookupWith someHosts.1 (replyFrame someHosts.1 0x01020304)),
        .resolve (lookupWith someHosts.2 (replyFrame someHosts.2 0x05060708))] :=
  own_answer _ _ (by decide +kernel)

/-! ## Late replies -/

/-- The hosts for which an event asks a server, and the replies that arrive in it. -/
def DnsEvent.asks : DnsEvent → List (List UInt8) × List DnsReply
  | .resolve c => ([c.host], c.servers.flatMap Exchange.replies)
  | .resolveSlirp host _ x => ([host], x.replies)
  | .poll frame => ([], (frameReply frame).toList)

/-- Every reply repeats a question that has been asked. -/
def Echoing : List (List UInt8) → List DnsEvent → Prop
  | _, [] => True
  | asked, e :: es =>
    (∀ r ∈ e.asks.2, ∃ host ∈ e.asks.1 ++ asked, r.question = dnsQuestion host) ∧
      Echoing (e.asks.1 ++ asked) es

/-- The reply for "a.io", and once more while "b.io" is looked up. -/
def lateReply : List DnsEvent :=
  [.resolve (lookupWith someHosts.1 (replyFrame someHosts.1 0x01020304)),
    .resolve (lookupWith someHosts.2 (replyFrame someHosts.1 0x01020304))]

/-- The second lookup returns the address of the first host. -/
theorem not_own_answer_late :
    ¬ ∀ es, Echoing [] es → Runs.Along DnsState.step OwnAnswer dnsBoot es := by
  intro hall
  have hecho : Echoing [] lateReply := ⟨by decide +kernel, by decide +kernel, trivial⟩
  obtain ⟨-, hsecond, -⟩ := hall lateReply hecho
  obtain ⟨⟨x, hx, hanswers⟩, -⟩ := hsecond 0x01020304 (by decide +kernel)
  obtain ⟨r, hr, hquestion⟩ := hanswers.mem_replies
  have hother : ∀ x ∈ (lookupWith someHosts.2 (replyFrame someHosts.1 0x01020304)).servers,
      ∀ r ∈ x.replies, r.question ≠ dnsQuestion someHosts.2 := by decide +kernel
  exact hother x hx r hr hquestion

end OpenAgentOS
