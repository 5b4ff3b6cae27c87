/-!
# Flags

The flags of regions that have a name. A flag is written with the two letters of its region, each as
a regional indicator.
-/

namespace Statechart.Text.Emoji

/-- The letters of each flag and its names, with semicolons between the flags. A flag is also found
under a name with `flag_for_` in front. -/
def flagNames : String :=
  "AC ascension_island; AD andorra; AE united_arab_emirates; AF afghanistan; AG
    antigua_&_barbuda; AI anguilla; AL albania; AM armenia; AO angola; AQ antarctica; AR
    argentina; AS american_samoa; AT austria; AU australia; AW aruba; AX åland_islands; AZ
    azerbaijan; BA bosnia_&_herzegovina; BB barbados; BD bangladesh; BE belgium; BF burkina_faso;
    BG bulgaria; BH bahrain; BI burundi; BJ benin; BL st._barthélemy; BM bermuda; BN brunei; BO
    bolivia; BQ caribbean_netherlands; BR brazil; BS bahamas; BT bhutan; BV bouvet_island; BW
    botswana; BY belarus; BZ belize; CA canada; CF central_african_republic; CH switzerland; CI
    côte_d’ivoire; CK cook_islands; CL chile; CM cameroon; CN china; CO colombia; CP
    clipperton_island; CR costa_rica; CU cuba; CV cape_verde; CW curaçao; CX christmas_island; CY
    cyprus; DE germany; DG diego_garcia; DJ djibouti; DK denmark; DM dominica; DO
    dominican_republic; DZ algeria; EA ceuta_&_melilla; EC ecuador; EE estonia; EG egypt; EH
    western_sahara; ER eritrea; ES spain; ET ethiopia; EU european_union; FI finland; FJ fiji; FK
    falkland_islands; FM micronesia; FO faroe_islands; FR france; GA gabon; GB united_kingdom; GD
    grenada; GE georgia; GF french_guiana; GG guernsey; GH ghana; GI gibraltar; GL greenland; GM
    gambia; GN guinea; GP guadeloupe; GQ equatorial_guinea; GR greece; GS
    south_georgia_&_south_sandwich_islands; GT guatemala; GU guam; GY guyana; HM
    heard_&_mcdonald_islands; HN honduras; HR croatia; HT haiti; HU hungary; IC canary_islands;
    ID indonesia; IE ireland; IL israel; IM isle_of_man; IN india; IO
    british_indian_ocean_territory; IQ iraq; IR iran; IS iceland; IT italy; JE jersey; JM
    jamaica; JO jordan; KE kenya; KG kyrgyzstan; KH cambodia; KI kiribati; KM comoros; KN
    st._kitts_&_nevis; KP north_korea; KR south_korea; KW kuwait; KY cayman_islands; KZ
    kazakhstan; LA laos; LB lebanon; LC st._lucia; LI liechtenstein; LK sri_lanka; LR liberia; LS
    lesotho; LT lithuania; LU luxembourg; LV latvia; LY libya; MA morocco; MC monaco; MD moldova;
    ME montenegro; MF st._martin; MG madagascar; MH marshall_islands; MK macedonia; ML mali; MN
    mongolia; MP northern_mariana_islands; MQ martinique; MR mauritania; MS montserrat; MT malta;
    MU mauritius; MV maldives; MW malawi; MX mexico; MY malaysia; MZ mozambique; NA namibia; NC
    new_caledonia; NE niger; NF norfolk_island; NG nigeria; NI nicaragua; NL netherlands; NO
    norway; NP nepal; NR nauru; NU niue; NZ new_zealand; OM oman; PA panama; PE peru; PF
    french_polynesia; PG papua_new_guinea; PH philippines; PK pakistan; PL poland; PM
    st._pierre_&_miquelon; PN pitcairn_islands; PR puerto_rico; PS palestinian_territories; PT
    portugal; PW palau; PY paraguay; QA qatar; RE réunion; RO romania; RS serbia; RU russia; RW
    rwanda; SA saudi_arabia; SB solomon_islands; SC seychelles; SD sudan; SE sweden; SG
    singapore; SH st._helena; SI slovenia; SJ svalbard_&_jan_mayen; SK slovakia; SL sierra_leone;
    SM san_marino; SN senegal; SO somalia; SR suriname; SS south_sudan; ST são_tomé_&_príncipe;
    SV el_salvador; SX sint_maarten; SY syria; SZ swaziland; TA tristan_da_cunha; TC
    turks_&_caicos_islands; TD chad; TF french_southern_territories; TG togo; TH thailand; TJ
    tajikistan; TK tokelau; TM turkmenistan; TN tunisia; TO tonga; TT trinidad_&_tobago; TV
    tuvalu; TW taiwan; TZ tanzania; UA ukraine; UG uganda; UM u.s._outlying_islands; US
    united_states; UY uruguay; UZ uzbekistan; VA vatican_city; VC st._vincent_&_grenadines; VE
    venezuela; VG british_virgin_islands; VI u.s._virgin_islands; VN vietnam; VU vanuatu; WF
    wallis_&_futuna; WS samoa; XK kosovo; YE yemen; YT mayotte; ZA south_africa; ZM zambia; ZW
    zimbabwe"

end Statechart.Text.Emoji
