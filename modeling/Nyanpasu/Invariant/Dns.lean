import Nyanpasu.Invariant.Slot
import Nyanpasu.Dns.Refinement

/-! # Host DNS

The synchronisation of host DNS writes its record, in memory and on disk, and calls
the DNS controller.  It runs as its scripts do, so host DNS goes on living; the rest of
the invariant is left to the environment.
-/

namespace Nyanpasu

open Program Dns

variable {env : Setting} {c : Ctx} {w : World}

def Ctx.withDns (c : Ctx) (entry : Option DnsOverrideRecord) : Ctx :=
  { c with ctrl := { c.ctrl with dnsRecord := entry } }

/-- The context up to the DNS record in memory. -/
def UpToDns (env : Setting) (c : Ctx) (w : World) : Prop := ∃ entry, Inv env (c.withDns entry) w

theorem Inv.upToDns (inv : Inv env c w) : UpToDns env c w := ⟨c.ctrl.dnsRecord, inv⟩

/-- The rest of the invariant goes with any host DNS that has lived. -/
theorem Inv.resync {entry : Option DnsOverrideRecord} {file : RecordFile}
    {calls : List DnsCall} (inv : Inv env c (w.withDns entry file calls))
    (lived : Lived env w.dnsFile w.ctrl.dnsRecord w.dnsCalls) :
    Inv env (c.withDns w.ctrl.dnsRecord) w := by
  have same : { c.ctrl with dnsRecord := w.ctrl.dnsRecord } = w.ctrl := by
    rw [← inv.ctrl]
    rfl
  have moved := inv.withCtrl w.ctrl (by rw [← same]) (by rw [← same]) (by rw [← same]) lived
  rwa [Ctx.withDns, same]

/-- A part of an operation that is run as a script. -/
theorem ends_script {program : Manager Unit} {script : Sync Unit}
    (drifts : Ends env program w fun _ w' => Drifted env w w')
    (simulates : ∀ dns, env.dns = some dns →
      Simulates Ctrl.dnsRecord env (· = ·) program script)
    (called : ∀ s, Step True ⟨.idle, s⟩ ⟨.operating script, s⟩) (held : UpToDns env c w) :
    Ends env program w fun _ w' => UpToDns env c w' := by
  obtain ⟨entry, inv⟩ := held
  refine drifts.also fun _ w' run drifted => ⟨w'.ctrl.dnsRecord,
    Inv.resync (c := c.withDns entry) (drifted.keeps (fun _ => Inv.tick) inv) ?_⟩
  intro dns injected
  obtain ⟨origin, s, lives, views⟩ := inv.dns dns injected
  rw [← inv.ctrl] at views
  obtain ⟨_, _, s', _, views', completes⟩ := (simulates dns injected w s views).of_run run
  have operates := lives_of_completes .operate completes
  exact ⟨origin, s', ((lives.tail (called s)).trans operates).tail .finish, views'⟩

theorem dnsRestore_ends (held : UpToDns env c w) :
    Ends env dnsRestore w fun _ w' => UpToDns env c w' :=
  ends_script (drifts_dnsRestore w) (fun _ => simulates_dnsRestore) (fun _ => .restore) held

theorem dnsConverge_ends (held : UpToDns env c w) :
    Ends env dnsConverge w fun _ w' => UpToDns env c w' :=
  ends_script (drifts_dnsConverge w) (fun _ => simulates_dnsConverge) (fun _ => .converge) held

end Nyanpasu
