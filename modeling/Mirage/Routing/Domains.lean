import Mirage.Foundations.Net
import Mirage.Foundations.Trimming

/-!
# Domain lists

The lists of domain roots which routing consults, and the predicates over them.
Every predicate reads a domain through `normalize` only, so it gives the same
answer for a domain and for its normal form.
-/

namespace Mirage.Routing

open Mirage.Foundations

/-- `trim_end_matches('.').to_ascii_lowercase()`. -/
def normalize (domain : String) : String :=
  toAsciiLowercase (trimEndMatches domain '.')

/-- The domain is `root` or one of its subdomains. -/
def underRoot (d root : String) : Bool :=
  d == root || endsWith d ("." ++ root)

def lanRouterExactDomains : List String :=
  ["router.asus.com", "asusrouter.com", "tplogin.cn", "tplinkwifi.net", "tplinklogin.net",
    "miwifi.com", "tendawifi.com", "pcloudlink.com", "phicomm.me", "zte.home", "my.router",
    "netcore.cc", "melogin.cn", "falogin.cn", "hiwifi.com", "leike.cc", "routerlogin.net",
    "routerlogin.com", "speedport.ip", "fritz.box", "repeater.setup", "router.ctc", "gateway.zte"]

def lanDomainSuffixes : List String :=
  ["local", "lan", "home.arpa", "localhost", "internal", "home", "corp", "box"]

def isLanOrRouterDomain (domain : String) : Bool :=
  let d := normalize domain
  lanRouterExactDomains.any (underRoot d) || lanDomainSuffixes.any (underRoot d)

def defaultRouterIpForDomain (domain : String) : Option IpAddr :=
  let d := normalize domain
  if underRoot d "miwifi.com" then some (.v4 (ipv4 192 168 31 1))
  else if underRoot d "tendawifi.com" then some (.v4 (ipv4 192 168 0 1))
  else if underRoot d "phicomm.me" || underRoot d "speedport.ip" then
    some (.v4 (ipv4 192 168 2 1))
  else if underRoot d "fritz.box" then some (.v4 (ipv4 192 168 178 1))
  else if ["router.asus.com", "asusrouter.com", "tplogin.cn", "tplinkwifi.net", "melogin.cn",
      "falogin.cn", "hiwifi.com", "netcore.cc", "leike.cc"].any (underRoot d) then
    some (.v4 (ipv4 192 168 1 1))
  else none

def nonCnRoots : List String :=
  ["google.com", "googleapis.com", "googlevideo.com", "gstatic.com", "ggpht.com", "gvt1.com",
    "gvt2.com", "1e100.net", "googleusercontent.com", "googleadservices.com",
    "googlesyndication.com", "google-analytics.com", "doubleclick.net", "youtube.com", "youtu.be",
    "ytimg.com", "yt.be", "android.com", "g.co", "goo.gl", "telegram.org", "t.me", "telesco.pe",
    "tdesktop.com", "telegra.ph", "telegram.me", "twitter.com", "x.com", "twimg.com", "t.co",
    "facebook.com", "fbcdn.net", "instagram.com", "cdninstagram.com", "whatsapp.com",
    "threads.net", "netflix.com", "nflxvideo.net", "nflximg.net", "nflxext.com", "spotify.com",
    "scdn.co", "spotifycdn.com", "disneyplus.com", "disney.com", "hbo.com", "max.com",
    "paramountplus.com", "ted.com", "tedcdn.com", "github.com", "githubusercontent.com",
    "github.io", "git.io", "gitlab.com", "bitbucket.org", "docker.com", "docker.io", "npmjs.org",
    "npmjs.com", "pypi.org", "crates.io", "openai.com", "chatgpt.com", "oaistatic.com",
    "oaiusercontent.com", "anthropic.com", "claude.ai", "x.ai", "grok.com", "midjourney.com",
    "huggingface.co", "perplexity.ai", "cursor.com", "cursor.sh", "groq.com", "mistral.ai",
    "cohere.com", "tiktok.com", "tiktokv.com", "byteoversea.com", "ibytedtos.com", "musical.ly",
    "wikipedia.org", "wikimedia.org", "reddit.com", "redd.it", "medium.com", "pinterest.com",
    "quora.com", "discord.com", "discordapp.com", "discord.gg", "line.me", "kakao.com",
    "cloudflare.com", "cloudflare-dns.com", "apple.com", "icloud.com", "aaplimg.com",
    "mzstatic.com", "microsoft.com", "live.com", "office.com", "azure.com", "bing.com",
    "windows.com", "msn.com", "amazon.com", "amazonaws.com", "steamcommunity.com",
    "steampowered.com", "epicgames.com", "playstation.com", "nintendo.com", "nintendo.net",
    "notion.so", "figma.com", "slack.com", "paypal.com", "stripe.com", "binance.com",
    "coinbase.com", "okx.com"]

def isKnownNonCnDomain (domain : String) : Bool :=
  nonCnRoots.any (underRoot (normalize domain))

def cnDomains : List String :=
  ["12306.cn", "12306.com", "126.com", "126.net", "163.com", "163yun.com", "360.cn", "360.com",
    "360buy.com", "360buyimg.com", "95516.com", "alibaba.com", "alicdn.com", "alipay.com",
    "alipayobjects.com", "aliyun.com", "aliyuncs.com", "amap.com", "autonavi.com", "baidu.com",
    "baidubce.com", "baiducontent.com", "bcebos.com", "bdstatic.com", "bilibili.com",
    "bilibili.tv", "biliapi.com", "biliapi.net", "bilivideo.com", "bytedance.com", "byteimg.com",
    "cainiao.com", "cctv.com", "china.com.cn", "chinapay.com", "cn", "com.cn", "csdn.net",
    "csdnimg.cn", "ctrip.com", "dianping.com", "didi.cn", "didichuxing.com", "didiglobal.com",
    "douyin.com", "douyincdn.com", "douyu.com", "edu.cn", "eev2.com", "feishu.cn", "gifshow.com",
    "gitee.com", "gov.cn", "gtimg.com", "gtimg.cn", "hdslb.com", "heytap.com", "huawei.com",
    "huaweicloud.com", "idqqimg.com", "ifeng.com", "iqiyi.com", "jd.com", "jd.hk", "kuaishou.com",
    "kuaishouzt.com", "meituan.com", "meituan.net", "mil.cn", "miui.com", "myqcloud.com",
    "net.cn", "netease.com", "oppo.com", "org.cn", "oschina.net", "people.com.cn",
    "pinduoduo.com", "pstatp.com", "qcloud.com", "qcloudimg.com", "qlogo.cn", "qpic.cn", "qq.com",
    "qq.com.cn", "qqmusic.qq.com", "qunar.com", "qzone.com", "sankuai.com", "sina.com",
    "sina.com.cn", "sinaimg.cn", "sinajs.cn", "snssdk.com", "sohu.com", "szshort.weixin.qq.com",
    "taobao.com", "taobaocdn.com", "tbcdn.cn", "tencent.com", "tencentmusic.com", "tmall.com",
    "toutiao.com", "unionpay.com", "upaiyun.com", "vivo.com", "wechat.com", "weibo.com",
    "weibo.cn", "weixin.com", "weixin.qq.com", "wps.cn", "xiaohongshu.com", "xiaomi.com",
    "xhscdn.com", "yangkeduo.com", "ykimg.com", "youku.com", "yximgs.com", "zhihu.com",
    "zhimg.com"]

/-- The built-in part of the decision: the `.cn` suffix and the list. -/
def isBuiltinCnDomain (domain : String) : Bool :=
  let d := normalize domain
  endsWith d ".cn" || d == "cn" || cnDomains.any (underRoot d)

def isCnDomainStrict (domain : String) : Bool :=
  if isKnownNonCnDomain domain then false else isBuiltinCnDomain domain

theorem toLower_eq_dot (char : Char) : (char.toLower == '.') = (char == '.') := by
  rw [Bool.eq_iff_iff, beq_iff_eq, beq_iff_eq]
  have value := toLower_val char
  constructor
  · intro lower
    rw [lower] at value
    apply char_ext
    change 46 = _ at value
    change _ = 46
    split at value <;> omega
  · rintro rfl
    rfl

theorem rdropWhile_map_rdropWhile {Element : Type} {p : Element → Bool} {f : Element → Element}
    (stable : ∀ element, p (f element) = p element) (elements : List Element) :
    ((elements.rdropWhile p).map f).rdropWhile p = (elements.rdropWhile p).map f := by
  rw [List.rdropWhile_eq_self_iff]
  intro notEmpty
  rw [List.getLast_map, stable]
  exact List.rdropWhile_last_not p elements _

@[simp]
theorem normalize_normalize (domain : String) :
    normalize (normalize domain) = normalize domain := by
  have stable : ∀ char : Char, (char.toLower == '.') = (char == '.') := toLower_eq_dot
  simp only [normalize, toAsciiLowercase, trimEndMatches, String.toList_ofList]
  rw [rdropWhile_map_rdropWhile stable, List.map_map]
  congr 1
  apply List.map_congr_left
  intro char _
  exact toLower_toLower char

@[simp]
theorem isLanOrRouterDomain_normalize (domain : String) :
    isLanOrRouterDomain (normalize domain) = isLanOrRouterDomain domain := by
  simp [isLanOrRouterDomain]

@[simp]
theorem isKnownNonCnDomain_normalize (domain : String) :
    isKnownNonCnDomain (normalize domain) = isKnownNonCnDomain domain := by
  simp [isKnownNonCnDomain]

@[simp]
theorem isBuiltinCnDomain_normalize (domain : String) :
    isBuiltinCnDomain (normalize domain) = isBuiltinCnDomain domain := by
  simp [isBuiltinCnDomain]

example : isLanOrRouterDomain "NAS.Local." = true := by decide

example : isKnownNonCnDomain "www.youtube.com" = true := by decide

/-!
## No name is both local and foreign

Two roots with a common subdomain are comparable: one of them is the other or
lies under it.  No foreign root is comparable with a local one.
-/

/-- A root with the dot which precedes it in its subdomains. -/
def dotted (root : String) : List Char :=
  '.' :: root.toList

theorem dotted_suffix {d root : String} (under : underRoot d root = true) :
    dotted root <:+ dotted d := by
  simp only [underRoot, Bool.or_eq_true, beq_iff_eq] at under
  rcases under with rfl | ending
  · exact List.suffix_rfl
  · have suffix : dotted root <:+ d.toList := by
      simpa [endsWith, dotted, String.toList_append] using ending
    exact suffix.trans (List.suffix_cons '.' d.toList)

theorem lan_foreign_incomparable :
    nonCnRoots.all (fun foreign =>
      (lanRouterExactDomains ++ lanDomainSuffixes).all fun lan =>
        !(dotted foreign).isSuffixOf (dotted lan) &&
          !(dotted lan).isSuffixOf (dotted foreign)) = true := by
  decide +kernel

theorem not_lan_of_foreign {domain : String} (foreign : isKnownNonCnDomain domain = true) :
    isLanOrRouterDomain domain = false := by
  rw [Bool.eq_false_iff]
  intro isLan
  simp only [isKnownNonCnDomain, List.any_eq_true] at foreign
  rcases foreign with ⟨foreign_root, foreign_member, under_foreign⟩
  simp only [isLanOrRouterDomain, ← List.any_append, List.any_eq_true] at isLan
  rcases isLan with ⟨lan_root, lan_member, under_lan⟩
  have incomparable := lan_foreign_incomparable
  rw [List.all_eq_true] at incomparable
  have foreign_apart := incomparable foreign_root foreign_member
  rw [List.all_eq_true] at foreign_apart
  have apart := foreign_apart lan_root lan_member
  simp only [Bool.and_eq_true, Bool.not_eq_true', ← Bool.not_eq_true,
    List.isSuffixOf_iff_suffix] at apart
  rcases List.suffix_or_suffix_of_suffix (dotted_suffix under_foreign)
    (dotted_suffix under_lan) with shorter | longer
  · exact apart.1 shorter
  · exact apart.2 longer

end Mirage.Routing
