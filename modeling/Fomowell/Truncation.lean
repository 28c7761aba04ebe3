import Fomowell.Launcher.Storage
import Fomowell.Project.State

/-!
# Cutting texts

`create_fomo` cuts a description and `add_comment` a content to two thousand bytes, both by
`&s[..len.min(2000)]`. The slice traps where the cut is inside a character, so a text is cut well
(`LongestPrefix`) where it is short enough, or where its two thousandth byte ends a character, and else
not at all.
-/

namespace Fomowell

section

variable {s r : String} {n : Nat}

end

/-! ## The two methods -/

/-- A call of `create_fomo` comes to the cut, and what follows the cut does not trap: the checks pass, and
the ledger's type is either asked for anew or one of which a balance can be asked. -/
structure ReachesCut (env : Launcher.Env) (time : Nat) (caller : Principal)
    (fomoCreate : Launcher.FomoProjectCreate) (st : Launcher.State) : Prop where
  passes : Launcher.createFomoCheck st caller fomoCreate = .ok ()
  known : st.tokenCache.needsRefresh env.icpAddr time = false →
    st.tokenCache.tokenType env.icpAddr ∈ [Token.TokenType.DIP20, .ICRC1, .ICRC2]

/-- What `create_fomo` asks a quote for. -/
def createFomoFee (env : Launcher.Env) (caller : Principal)
    (fomoCreate : Launcher.FomoProjectCreate) : Launcher.Fee where
  tokenId := env.icpAddr
  caller
  usdAmount := Pmm.nat18 * 6
  k := .createFomo fomoCreate

section

variable {env : Launcher.Env} {time : Nat} {caller : Principal}
  {fomoCreate : Launcher.FomoProjectCreate} {st : Launcher.State}

/-- After the cut nothing traps, whatever the description. -/
theorem ReachesCut.quotes (reaches : ReachesCut env time caller fomoCreate st)
    (fomoCreate : Launcher.FomoProjectCreate) :
    ∃ next, Launcher.getIcpPlatformFee time (createFomoFee env caller fomoCreate) st = some next := by
  rw [← Option.ne_none_iff_exists']
  intro htrap
  obtain ⟨hcached, hunsupported⟩ := Launcher.callToken_eq_none.mp htrap
  have hknown := reaches.known hcached
  generalize htype : st.tokenCache.tokenType env.icpAddr = type at hknown
  replace hunsupported : (Launcher.TokenCall.balanceOf (createFomoFee env caller fomoCreate)).supports
      (st.tokenCache.tokenType env.icpAddr) = false := hunsupported
  rw [htype] at hunsupported
  cases type with
  | DIP20 | ICRC1 | ICRC2 => cases hunsupported
  | EXT | UNKOWN => exact absurd hknown (by decide)

end

end Fomowell
